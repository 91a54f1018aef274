import ObjectBoundary.Act.Entities

/-!
# Recognising wrappers

A class recognises the structures that it made by the tag that a wrapper keeps beside its
structure. Every class can read the tag of every wrapper, so a structure of another class is
noticed before anything else of it is used. A structure of the far side has no tag to read.

* `Act.wrapperTag`: the tag beside a structure.
* `Act.recognises`: whether a class made a structure; otherwise a failed check.
* `Act.objectOf`: the object behind a structure.
-/

namespace ObjectBoundary.Act

def wrapperTag (s : Id) : Act Tag := do
  ofOption .wrongKind (← entity s).wrapperTag?

/-- Whether the class with a tag made a structure. -/
def recognises (expected : Tag) (s : Id) : Act Bool := do
  let found ← wrapperTag s
  require (found == expected) (.otherClass found expected)
  pure (found == expected)

/-- The object behind a structure, which the class with a tag must have made. -/
def objectOf (expected : Tag) (s : Id) : Act (Option Id) := do
  requireRunning
  if ← recognises expected s then
    return (← entity s).below?
  else
    pure none

end ObjectBoundary.Act
