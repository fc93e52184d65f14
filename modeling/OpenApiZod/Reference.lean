/-!
# References

A reference is a text such as `#/components/schemas/Pet`. The name it points to is its last
segment; a reference to a request body or a response has to name the table as well.
-/

namespace OpenApiZod.Reference

/-- The segment after the last slash. -/
def lastSegment (reference : String) : String :=
  String.ofList (reference.toList.reverse.takeWhile (· ≠ '/')).reverse

/-- The name in the table of components called `table`, if the reference points into it. -/
def nameIn? (table reference : String) : Option String :=
  if ("#/components/" ++ table ++ "/").toList.isPrefixOf reference.toList then
    some (lastSegment reference)
  else none

end OpenApiZod.Reference
