import Mathlib.Data.List.Nodup
import ObjectBoundary.Event

/-!
# Reading tags back

A log line shows a tag by its name or, where it has none, by its number. Names and numbers differ
in form, names differ from each other, and no tag is shown with a blank or an equals sign in it. So
each tag has a text of its own, and the tag that a line shows is what stands after its last blank
or equals sign.

* `Tag.ofText?`: the tag that a text shows.
* `Tag.ofText?_eq_some_iff`: a text is read as a tag if and only if the tag is shown so.
* `Tag.ofLine?`: the tag that a log line shows at its end.
* `tags_recovered`: tags are read back from their texts and from the lines that show them.
-/

namespace ObjectBoundary

namespace Tag

/-! ## Reading a text -/

/-- The number that is written in decimal digits, after a sign if it is negative. -/
def numberOf : List Char → Int
  | '-' :: digits => -(Nat.ofDigitChars 10 digits 0 : Int)
  | digits => Nat.ofDigitChars 10 digits 0

/-- The number that a text shows between brackets, after a title. -/
def numberShown (text : String) : Int :=
  numberOf (text.toList.drop "WrapperType(".toList.length).dropLast

/-- The only tag that a text can show. -/
def candidate (text : String) : Tag :=
  match publishedNames.idxOf? text with
  | some i => ⟨Int32.ofInt (i + 1)⟩
  | none => ⟨Int32.ofInt (numberShown text)⟩

/-- The tag that a text shows. Any other spelling of its number is refused, and so is the number of
a tag that has a name. -/
def ofText? (text : String) : Option Tag :=
  if (candidate text).text = text then some (candidate text) else none

theorem nodup_publishedNames : publishedNames.Nodup := by decide +kernel

/-- A name stands in the table at the place that the number of its tag tells. -/
theorem name?_eq_some_iff {t : Tag} {name : String} :
    t.name? = some name ↔ ∃ i : Nat, publishedNames[i]? = some name ∧ t.toInt = i + 1 := by
  unfold name?
  constructor
  · intro h
    split at h
    · exact ⟨(t.toInt - 1).toNat, h, by omega⟩
    · cases h
  · rintro ⟨i, hi, ht⟩
    have hplace : ((i : Int) + 1 - 1).toNat = i := by omega
    rw [ht, if_pos (by omega), hplace, hi]

theorem debugText_eq (t : Tag) : t.debugText = "WrapperType(" ++ t.toInt.repr ++ ")" := rfl

/-- Unlike a name, the text of a number has a bracket. -/
theorem debugText_not_mem (t : Tag) : t.debugText ∉ publishedNames := by
  have hnames : ∀ name ∈ publishedNames, '(' ∉ name.toList := by decide +kernel
  have hbracket : '(' ∈ t.debugText.toList := by
    rw [debugText_eq, String.toList_append, String.toList_append]
    exact List.mem_append_left _ (List.mem_append_left _ (by decide))
  exact fun hmem => hnames _ hmem hbracket

theorem isDigit_repr (k : Nat) : ∀ c ∈ k.repr.toList, c.isDigit = true := by
  intro c hc
  rw [Nat.repr_eq_ofList_toDigits, String.toList_ofList] at hc
  exact Nat.isDigit_of_mem_toDigits (by decide) (by decide) hc

theorem numberOf_repr (n : Int) : numberOf n.repr.toList = n := by
  have hdigits (k : Nat) : Nat.ofDigitChars 10 k.repr.toList 0 = k := by
    rw [Nat.repr_eq_ofList_toDigits, String.toList_ofList, Nat.ofDigitChars_ten_toDigits]
  rw [Int.repr_eq_if]
  split
  · unfold numberOf
    split
    · -- A number that is not negative has no sign.
      rename_i digits hsign
      have hdigit := isDigit_repr n.toNat '-' (hsign ▸ List.mem_cons_self)
      exact absurd hdigit (by decide)
    · rw [hdigits]
      omega
  · have hcons : ("-" ++ (-n).toNat.repr).toList = '-' :: (-n).toNat.repr.toList :=
      String.toList_append
    rw [hcons, numberOf, hdigits]
    omega

theorem numberShown_debugText (t : Tag) : numberShown t.debugText = t.toInt := by
  have hbetween : (t.debugText.toList.drop "WrapperType(".toList.length).dropLast =
      t.toInt.repr.toList := by
    rw [debugText_eq, String.toList_append, String.toList_append, List.append_assoc,
      List.drop_left]
    exact List.dropLast_concat
  rw [numberShown, hbetween, numberOf_repr]

theorem candidate_text (t : Tag) : candidate t.text = t := by
  unfold candidate
  cases hname : t.name? with
  | some name =>
    obtain ⟨i, hi, ht⟩ := name?_eq_some_iff.mp hname
    obtain ⟨hlt, hget⟩ := List.getElem?_eq_some_iff.mp hi
    have hplace : publishedNames.idxOf? t.text = some i := by
      rw [text, hname, Option.getD_some, ← hget]
      refine List.idxOf?_eq_some_iff.mpr ⟨hlt, rfl, fun j hj heq => ?_⟩
      exact absurd ((nodup_publishedNames.getElem_inj_iff).mp heq) (Nat.ne_of_lt hj)
    rw [hplace]
    show Tag.mk (Int32.ofInt ((i : Int) + 1)) = t
    rw [← ht, toInt, Int32.ofInt_toInt]
  | none =>
    have hnumber : t.text = t.debugText := by rw [text, hname, Option.getD_none]
    rw [hnumber, List.idxOf?_eq_none_iff.mpr t.debugText_not_mem]
    show Tag.mk (Int32.ofInt (numberShown t.debugText)) = t
    rw [numberShown_debugText, toInt, Int32.ofInt_toInt]

/-- No two tags are shown alike. -/
theorem text_injective : Function.Injective text := Function.LeftInverse.injective candidate_text

/-- A text is read as a tag if and only if the tag is shown so. -/
theorem ofText?_eq_some_iff {text : String} {t : Tag} : ofText? text = some t ↔ text = t.text := by
  unfold ofText?
  constructor
  · intro h
    split at h
    · rename_i hshown
      cases h
      exact hshown.symm
    · cases h
  · rintro rfl
    rw [candidate_text, if_pos rfl]

/-! ## Reading a line -/

/-- What stands between the fields of a log line. -/
def isSeparator (c : Char) : Bool := c == ' ' || c == '='

/-- A text without separators. -/
def isField (text : String) : Bool := text.toList.all fun c => !isSeparator c

/-- What stands after the last separator of a line. -/
def lastField (line : String) : String :=
  String.ofList (line.toList.reverse.takeWhile fun c => !isSeparator c).reverse

/-- The tag that a log line shows at its end. -/
def ofLine? (line : String) : Option Tag := ofText? (lastField line)

theorem isField_append (s t : String) : isField (s ++ t) = (isField s && isField t) := by
  rw [isField, String.toList_append, List.all_append]
  rfl

theorem lastField_append {start field : String} {c : Char} (hc : isSeparator c = true)
    (hstart : start.toList.getLast? = some c) (hfield : isField field = true) :
    lastField (start ++ field) = field := by
  obtain ⟨before, hbefore⟩ := List.getLast?_eq_some_iff.mp hstart
  have hall : ∀ d ∈ field.toList.reverse, (!isSeparator d) = true := fun d hd =>
    List.all_eq_true.mp hfield d (List.mem_reverse.mp hd)
  have hstop : (c :: before.reverse).takeWhile (fun d => !isSeparator d) = [] :=
    List.takeWhile_cons_of_neg (by rw [hc]; decide)
  rw [lastField, String.toList_append, hbefore, List.reverse_append, List.reverse_append,
    List.takeWhile_append_of_pos hall, List.reverse_singleton, List.singleton_append, hstop,
    List.append_nil, List.reverse_reverse, String.ofList_toList]

/-- Neither a digit nor a sign is a separator. -/
theorem isField_repr (n : Int) : isField n.repr = true := by
  have hdigits (k : Nat) : isField k.repr = true := by
    refine List.all_eq_true.mpr fun c hc => ?_
    have hdigit := isDigit_repr k c hc
    have hne : c ≠ ' ' ∧ c ≠ '=' := by
      constructor <;> rintro rfl <;> exact absurd hdigit (by decide)
    simp [isSeparator, hne]
  rw [Int.repr_eq_if]
  split
  · exact hdigits _
  · rw [isField_append, hdigits]
    rfl

theorem isField_text (t : Tag) : isField t.text = true := by
  unfold text
  cases hname : t.name? with
  | some name =>
    obtain ⟨i, hi, -⟩ := name?_eq_some_iff.mp hname
    have hnames : publishedNames.all isField = true := by decide +kernel
    exact List.all_eq_true.mp hnames name (List.mem_of_getElem? hi)
  | none =>
    rw [Option.getD_none, debugText_eq, isField_append, isField_append, isField_repr]
    rfl

theorem ofLine?_append {start : String} {c : Char} (hc : isSeparator c = true)
    (hstart : start.toList.getLast? = some c) (t : Tag) : ofLine? (start ++ t.text) = some t := by
  rw [ofLine?, lastField_append hc hstart t.isField_text]
  exact ofText?_eq_some_iff.mpr rfl

end Tag

/-! ## The lines that show tags -/

/-- An event whose line shows a tag at its end. -/
inductive Event.Shows : Event → Tag → Prop
  | crossed (crossing : Crossing) (t : Tag) : Shows (.crossed crossing t) t
  | unexpectedClass (t : Tag) : Shows (.failed (.unexpectedClass t)) t
  | notProxy (t : Tag) : Shows (.failed (.notProxy t)) t

theorem Event.Shows.ofLine? {e : Event} {t : Tag} (h : e.Shows t) {name : Id → String}
    {line : String} (hline : e.line? name = some line) : Tag.ofLine? line = some t := by
  cases h with
  | crossed crossing =>
    cases hline
    refine Tag.ofLine?_append (c := '=') rfl ?_ t
    rw [String.toList_append, List.getLast?_append]
    rfl
  | unexpectedClass =>
    cases hline
    show Tag.ofLine? ("ERROR " ++ ("unexpected class type " ++ t.text)) = some t
    rw [← String.append_assoc]
    exact Tag.ofLine?_append (c := ' ') rfl (by decide) t
  | notProxy =>
    cases hline
    show Tag.ofLine? ("ERROR " ++ ("object is not a proxy of class " ++ t.text)) = some t
    rw [← String.append_assoc]
    exact Tag.ofLine?_append (c := ' ') rfl (by decide) t

/-- Each of the tags, which are all integers of 32 bits, has a text of its own. It is read back from
its text and from every line that shows it, and none without a name is shown like one that has. -/
theorem tags_recovered :
    (∀ t t' : Tag, t.text = t'.text → t = t') ∧
      (∀ text t, Tag.ofText? text = some t ↔ text = t.text) ∧
      (∀ t : Tag, t.name? = none → t.text ∉ Tag.publishedNames) ∧
      ∀ e t name line, Event.Shows e t → e.line? name = some line → Tag.ofLine? line = some t := by
  refine ⟨fun t t' heq => Tag.text_injective heq, fun text t => Tag.ofText?_eq_some_iff,
    fun t hname => ?_, fun e t name line hshows hline => hshows.ofLine? hline⟩
  rw [Tag.text, hname, Option.getD_none]
  exact t.debugText_not_mem

/-- A published tag is read back by its name. -/
example : Tag.ofLine? "TRACE wrapped local object wrapper_type=APP" = some ⟨4⟩ := by decide +kernel

end ObjectBoundary
