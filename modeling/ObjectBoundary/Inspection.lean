import ObjectBoundary.Act.Recognition
import ObjectBoundary.Act.References

/-!
# Looking at wrappers and proxies

What can be asked of a wrapper or proxy without changing it, and how handles, proxies and
wrappers are shown. Addresses are never shown.

* `SharedClass.inspect`, `OwnedClass.inspect`: all that a wrapper tells about itself.
* `SharedProxy.debugText`, `OwnedProxy.debugText`: a proxy as it is shown.
-/

namespace ObjectBoundary

/-- The bytes of a wrapper before its structure: the tag, the object with its interface, and the
place of the wrapper, one word but for the object, which takes two. -/
def wrapperHeader : Nat := 4 * Layout.wordSize

/-! ## Shared wrappers -/

/-- What a wrapper of a shared object tells about itself. -/
structure SharedReport where
  tag : Tag
  count : Count
  object : String
  isUnique : Bool
  isReferenced : Bool

def SharedReport.debugText (r : SharedReport) : String :=
  "CppToCRefCountedWrapper \x7b wrapper_type: " ++ r.tag.debugText ++ ", object: PTR, ref_count: " ++
    r.count.text ++ ", .. \x7d"

open Act in
/-- Asks the wrapper behind a structure, if this class made it. -/
def SharedClass.inspect (c : SharedClass) (s : Id) : Act (Option SharedReport) := do
  if ← recognises c.tag s then
    match ← entity s with
    | .sharedWrapper w => do
      let isUnique := (← ask .unique s) != 0
      let isReferenced := (← ask .referenced s) != 0
      let object := (← get).store.nameOf w.object
      pure (some ⟨w.cls.tag, w.count, object, isUnique, isReferenced⟩)
    | _ => refuse .wrongKind
  else pure none

/-! ## Owned wrappers -/

/-- What a wrapper of an owned object tells about itself. -/
structure OwnedReport where
  tag : Tag
  owns : Bool

def OwnedReport.debugText (r : OwnedReport) : String :=
  "CppToCScopedWrapper \x7b wrapper_type: " ++ r.tag.debugText ++ ", owned: " ++
    Settings.switchText r.owns ++ ", .. \x7d"

open Act in
/-- Asks the wrapper behind a structure, if this class made it. -/
def OwnedClass.inspect (c : OwnedClass) (s : Id) : Act (Option OwnedReport) := do
  if ← recognises c.tag s then
    match ← entity s with
    | .ownedWrapper w => pure (some ⟨w.cls.tag, w.owns⟩)
    | _ => refuse .wrongKind
  else pure none

/-! ## Handles and proxies -/

/-- A handle to an object of this side. -/
def handleText : String := "RefPtr(Pointer \x7b addr: PTR, metadata: DynMetadata(PTR) \x7d) PTR"

/-- A borrowing wrapper in the hands of this side. -/
def loanText : String := "RawWrapper(PTR)"

def SharedProxy.debugText (p : SharedProxy) : String :=
  let title := match p.cls with
    | .client => "TranslatorTestRefPtrClientCToCpp"
    | .child => "TranslatorTestRefPtrClientChildCToCpp"
  title ++ "(RefCountedWrapperStruct \x7b wrapper_type: " ++ p.cls.sharedTag.debugText ++
    ", structure: PTR, ref_count: " ++ p.count.text ++ " \x7d)"

def OwnedProxy.debugText (p : OwnedProxy) : String :=
  let title := match p.cls with
    | .client => "TranslatorTestScopedClientCToCpp"
    | .child => "TranslatorTestScopedClientChildCToCpp"
  title ++ "(ScopedWrapperStruct \x7b wrapper_type: " ++ p.cls.ownedTag.debugText ++
    ", structure: " ++ (if p.target.isSome then "Some(PTR)" else "None") ++ " \x7d)"

end ObjectBoundary
