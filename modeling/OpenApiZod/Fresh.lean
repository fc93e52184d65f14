/-!
# Fresh names

A name that is taken gets underscores after it, as few as make it free.
-/

namespace OpenApiZod

/-- The name followed by `n` underscores. -/
def underscored (name : String) (n : Nat) : String :=
  name ++ String.ofList (List.replicate n '_')

/-- The name with as few underscores after it as make it none of `taken`. One of the first
`taken.length + 1` candidates is free, since they all differ. -/
def freshName (taken : List String) (name : String) : String :=
  (((List.range (taken.length + 1)).map (underscored name)).find? (· ∉ taken)).getD name

end OpenApiZod
