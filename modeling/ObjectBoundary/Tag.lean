/-!
# Tags of wrapper classes

Every class that carries objects across the boundary has a tag, an integer of 32 bits. The
tags of the published interfaces are numbered from 1 in the order of `Tag.publishedNames`; any
other integer is a tag too, because the far side may know interfaces that this side does not.

* `Tag.name?`: the name of a published tag.
* `Tag.text`: the form in which log lines show a tag, by name where it has one.
* `Tag.debugText`: the form that always shows the number.
* `Tag.sorted`, `Tag.interval`: tags in the order of their numbers.
-/

namespace ObjectBoundary

/-- The tag of a wrapper class. -/
structure Tag where
  number : Int32
deriving DecidableEq

namespace Tag

/-- The names of the published interfaces. The first has number 1, and none is ever
renumbered. -/
def publishedNames : List String :=
  ["BASE_REF_COUNTED", "BASE_SCOPED", "ACCESSIBILITY_HANDLER", "APP", "BINARY_VALUE",
    "BUTTON_DELEGATE", "COOKIE_ACCESS_FILTER", "DEV_TOOLS_MESSAGE_OBSERVER", "DICTIONARY_VALUE",
    "DOWNLOAD_HANDLER", "DRAG_HANDLER", "FILE_DIALOG_CALLBACK", "FIND_HANDLER",
    "JSDIALOG_HANDLER", "KEYBOARD_HANDLER", "LIST_VALUE", "MEDIA_OBSERVER", "MEDIA_ROUTE",
    "MENU_BUTTON_DELEGATE", "PERMISSION_HANDLER", "PREFERENCE_REGISTRAR", "PRINT_SETTINGS",
    "RESOLVE_CALLBACK", "RESPONSE", "RESPONSE_FILTER", "RUN_QUICK_MENU_CALLBACK", "SCROLL_VIEW",
    "SHARED_PROCESS_MESSAGE_BUILDER", "TRANSLATOR_TEST_REF_PTR_CLIENT",
    "TRANSLATOR_TEST_REF_PTR_CLIENT_CHILD", "TRANSLATOR_TEST_SCOPED_CLIENT",
    "TRANSLATOR_TEST_SCOPED_CLIENT_CHILD", "URLREQUEST_CLIENT", "V8HANDLER", "V8STACK_FRAME",
    "WRITE_HANDLER", "X509CERTIFICATE", "X509CERT_PRINCIPAL", "XML_READER"]

/-- The tag of the reference counted client interface. -/
def sharedClient : Tag := ⟨29⟩

/-- The tag of the reference counted child interface. -/
def sharedChild : Tag := ⟨30⟩

/-- The tag of the scoped client interface. -/
def ownedClient : Tag := ⟨31⟩

/-- The tag of the scoped child interface. -/
def ownedChild : Tag := ⟨32⟩

def toInt (t : Tag) : Int := t.number.toInt

/-- The name of a published tag. -/
def name? (t : Tag) : Option String :=
  if 0 < t.toInt then publishedNames[(t.toInt - 1).toNat]? else none

/-- The number of a tag, written out. -/
def debugText (t : Tag) : String := "WrapperType(" ++ toString t.toInt ++ ")"

/-- The name of a tag, or its number where it has none. -/
def text (t : Tag) : String := t.name?.getD t.debugText

/-! ## Order -/

/-- Tags are ordered by their numbers, the negative ones first. -/
def le (s t : Tag) : Bool := decide (s.toInt ≤ t.toInt)

def sorted (ts : List Tag) : List Tag := ts.mergeSort le

/-- The tags from `first` to `last`, both included. -/
def interval (first last : Tag) : List Tag :=
  (List.range (last.toInt - first.toInt + 1).toNat).map fun (i : Nat) =>
    ⟨Int32.ofInt (first.toInt + i)⟩

end Tag

end ObjectBoundary
