import Mathlib.Data.List.Forall2
import Mathlib.Data.List.TakeWhile
import ObjectBoundary.Settings

/-!
# How switches are written

A switch is written as one of eight words. Its letters may be capitals, and there may be blanks
around it, but nothing else is a switch: blanks may be any characters with the Unicode property,
whereas only ASCII letters have capitals here, so no other character stands for a letter.

* `Text.trim_append`, `Text.exists_trim`: what removing the blanks around a text leaves.
* `Text.SameLetter`, `Text.Recased`: letters and texts that differ in case only.
* `Switch.Spells`: a text is a spelling of a word.
* `Switch.ofChars?_eq_some_iff`: what is read as on and what as off.
* `switches_read`: how the value of a variable is read.
-/

namespace ObjectBoundary

namespace Text

/-! ## Blanks around a text -/

theorem isBlank_iff {c : Char} : isBlank c = true ↔
    (0x9 ≤ c.toNat ∧ c.toNat ≤ 0xD) ∨ c.toNat = 0x20 ∨ c.toNat = 0x85 ∨ c.toNat = 0xA0 ∨
      c.toNat = 0x1680 ∨ (0x2000 ≤ c.toNat ∧ c.toNat ≤ 0x200A) ∨ c.toNat = 0x2028 ∨
      c.toNat = 0x2029 ∨ c.toNat = 0x202F ∨ c.toNat = 0x205F ∨ c.toNat = 0x3000 := by
  simp only [isBlank, blankRanges, List.any_cons, List.any_nil, Bool.or_eq_true, Bool.and_eq_true,
    decide_eq_true_eq, Bool.false_eq_true, or_false]
  omega

/-- A text of blanks only. -/
def AllBlank (cs : List Char) : Prop := ∀ c ∈ cs, isBlank c = true

theorem allBlank_reverse {cs : List Char} (h : AllBlank cs) : AllBlank cs.reverse :=
  fun c hc => h c (List.mem_reverse.mp hc)

theorem AllBlank.append {cs ds : List Char} (hc : AllBlank cs) (hd : AllBlank ds) :
    AllBlank (cs ++ ds) := fun c hmem => (List.mem_append.mp hmem).elim (hc c) (hd c)

/-- Nothing is removed where no blank comes first. -/
theorem dropWhile_eq_self {cs : List Char} (h : ∀ c ∈ cs, isBlank c = false) (ds : List Char)
    (hne : cs ≠ []) : (cs ++ ds).dropWhile isBlank = cs ++ ds := by
  cases cs with
  | nil => exact absurd rfl hne
  | cons c cs =>
    refine List.dropWhile_cons_of_neg ?_
    rw [h c List.mem_cons_self]
    exact Bool.false_ne_true

/-- A text without blanks is all that is left of it and of the blanks around it. -/
theorem trim_append {before middle after : List Char} (hbefore : AllBlank before)
    (hmiddle : ∀ c ∈ middle, isBlank c = false) (hafter : AllBlank after) :
    trim (before ++ middle ++ after) = middle := by
  by_cases hne : middle = []
  · subst hne
    have hall : (before ++ [] ++ after).dropWhile isBlank = [] :=
      List.dropWhile_eq_nil_iff.mpr ((List.append_nil before).symm ▸ hbefore.append hafter)
    rw [trim, hall]
    rfl
  · have hfront : (before ++ middle ++ after).dropWhile isBlank = middle ++ after := by
      rw [List.append_assoc, List.dropWhile_append_of_pos hbefore, dropWhile_eq_self hmiddle _ hne]
    have hback : (middle ++ after).reverse.dropWhile isBlank = middle.reverse := by
      have hreverse : ∀ c ∈ middle.reverse, isBlank c = false := fun c hc =>
        hmiddle c (List.mem_reverse.mp hc)
      have hkept := dropWhile_eq_self hreverse [] (mt List.reverse_eq_nil_iff.mp hne)
      rw [List.append_nil] at hkept
      rw [List.reverse_append, List.dropWhile_append_of_pos (allBlank_reverse hafter), hkept]
    rw [trim, hfront, hback, List.reverse_reverse]

/-- What is removed is blanks at the two ends. -/
theorem exists_trim (cs : List Char) :
    ∃ before after, cs = before ++ trim cs ++ after ∧ AllBlank before ∧ AllBlank after := by
  let rest := cs.dropWhile isBlank
  refine ⟨cs.takeWhile isBlank, (rest.reverse.takeWhile isBlank).reverse, ?_,
    fun c hc => List.mem_takeWhile_imp hc, allBlank_reverse fun c hc => List.mem_takeWhile_imp hc⟩
  have hrest : trim cs ++ (rest.reverse.takeWhile isBlank).reverse = rest := by
    rw [trim, ← List.reverse_append, List.takeWhile_append_dropWhile, List.reverse_reverse]
  rw [List.append_assoc, hrest, List.takeWhile_append_dropWhile]

/-! ## Capitals -/

/-- A character is the capital of an ASCII letter. -/
def Capital (c d : Char) : Prop := 'a' ≤ d ∧ d ≤ 'z' ∧ c.toNat + 32 = d.toNat

/-- Two characters are the same but for the case of an ASCII letter. -/
def SameLetter (c d : Char) : Prop := c = d ∨ Capital c d ∨ Capital d c

/-- Two texts are the same but for the case of ASCII letters. -/
def Recased (cs ds : List Char) : Prop := List.Forall₂ SameLetter cs ds

theorem toNat_toLower (c : Char) :
    c.toLower.toNat = if 65 ≤ c.toNat ∧ c.toNat ≤ 90 then c.toNat + 32 else c.toNat := by
  unfold Char.toLower
  by_cases h : c.val ≥ 'A'.val ∧ c.val ≤ 'Z'.val
  · have hrange : 65 ≤ c.toNat ∧ c.toNat ≤ 90 := h
    rw [dif_pos h, if_pos hrange]
    show (c.val + 32).toNat = c.toNat + 32
    rw [UInt32.toNat_add, Char.toNat_val]
    show (c.toNat + 32) % 2 ^ 32 = _
    omega
  · have hrange : ¬ (65 ≤ c.toNat ∧ c.toNat ≤ 90) := h
    rw [dif_neg h, if_neg hrange]

theorem capital_iff {c d : Char} :
    Capital c d ↔ 65 ≤ c.toNat ∧ c.toNat ≤ 90 ∧ c.toNat + 32 = d.toNat := by
  have hrange : ('a' ≤ d ∧ d ≤ 'z') ↔ 97 ≤ d.toNat ∧ d.toNat ≤ 122 := Iff.rfl
  rw [Capital, ← and_assoc, hrange]
  omega

theorem sameLetter_iff {c d : Char} : SameLetter c d ↔ c.toLower = d.toLower := by
  rw [SameLetter, capital_iff, capital_iff, ← Char.toNat_inj, ← Char.toNat_inj, toNat_toLower,
    toNat_toLower]
  split <;> split <;> omega

theorem recased_iff {cs ds : List Char} :
    Recased cs ds ↔ cs.map Char.toLower = ds.map Char.toLower := by
  have hsame : SameLetter = fun c d => c.toLower = d.toLower := by
    funext c d
    exact propext sameLetter_iff
  rw [Recased, hsame, ← List.forall₂_eq_eq_eq, List.forall₂_map_left_iff,
    List.forall₂_map_right_iff]

/-- Which blanks are removed does not depend on the case of letters. -/
theorem trim_map_toLower (cs : List Char) :
    trim (cs.map Char.toLower) = (trim cs).map Char.toLower := by
  have hblank : isBlank ∘ Char.toLower = isBlank := by
    funext c
    rw [Function.comp_apply, Bool.eq_iff_iff, isBlank_iff, isBlank_iff, toNat_toLower]
    split <;> omega
  rw [trim, trim, List.dropWhile_map, hblank, ← List.map_reverse, List.dropWhile_map, hblank,
    ← List.map_reverse]

end Text

/-! ## Spellings -/

namespace Switch

open Text

/-- A text is a word in any case of its letters, with any blanks around it. -/
def Spells (text word : List Char) : Prop :=
  ∃ before middle after, text = before ++ middle ++ after ∧ AllBlank before ∧ AllBlank after ∧
    Recased middle word

/-- The words of a switch that is on, or off. -/
def words : Bool → List (List Char)
  | true => onWords
  | false => offWords

/-- A digit or an ASCII letter. -/
def isPlain (c : Char) : Bool :=
  decide ('0' ≤ c) && decide (c ≤ '9') || decide ('A' ≤ c) && decide (c ≤ 'Z') ||
    decide ('a' ≤ c) && decide (c ≤ 'z')

theorem isPlain_iff {c : Char} : isPlain c = true ↔ (48 ≤ c.toNat ∧ c.toNat ≤ 57) ∨
    (65 ≤ c.toNat ∧ c.toNat ≤ 90) ∨ (97 ≤ c.toNat ∧ c.toNat ≤ 122) := by
  simp only [isPlain, Bool.or_eq_true, Bool.and_eq_true, decide_eq_true_eq, or_assoc]
  exact Iff.rfl

theorem isBlank_of_isPlain {c : Char} (h : isPlain c = true) : isBlank c = false := by
  rw [isPlain_iff] at h
  rw [← Bool.not_eq_true, isBlank_iff]
  omega

theorem isPlain_of_sameLetter {c d : Char} (h : SameLetter c d) (hd : isPlain d = true) :
    isPlain c = true := by
  rw [SameLetter, capital_iff, capital_iff, ← Char.toNat_inj] at h
  rw [isPlain_iff] at hd ⊢
  omega

theorem isPlain_of_recased {cs ds : List Char} (h : Recased cs ds)
    (hds : ds.all isPlain = true) : cs.all isPlain = true := by
  induction h with
  | nil => rfl
  | cons hc _ ih =>
    rw [List.all_cons, Bool.and_eq_true] at hds ⊢
    exact ⟨isPlain_of_sameLetter hc hds.1, ih hds.2⟩

/-! ## What is read -/

section Words

variable {b : Bool} {word : List Char} (h : word ∈ words b)
include h

theorem isPlain_of_mem_words : word.all isPlain = true := by
  have hall : ∀ b, (words b).all (fun word => word.all isPlain) = true := by decide
  exact List.all_eq_true.mp (hall b) word h

theorem ne_nil_of_mem_words : word ≠ [] := by
  have hall : ∀ b, ∀ word ∈ words b, word ≠ [] := by decide
  exact hall b word h

theorem map_toLower_of_mem_words : word.map Char.toLower = word := by
  have hall : ∀ b, ∀ word ∈ words b, word.map Char.toLower = word := by decide
  exact hall b word h

/-- A word says one thing only. -/
theorem not_mem_words : word ∉ words (!b) := by
  have hall : ∀ b, ∀ word ∈ words b, word ∉ words (!b) := by decide
  exact hall b word h

end Words

/-- A spelling of a word is that word once the blanks are gone. -/
theorem trim_of_spells {text word : List Char} {b : Bool} (hword : word ∈ words b)
    (h : Spells text word) : Recased (trim text) word := by
  obtain ⟨before, middle, after, rfl, hbefore, hafter, hmiddle⟩ := h
  have hplain := isPlain_of_recased hmiddle (isPlain_of_mem_words hword)
  rw [trim_append hbefore (fun c hc => isBlank_of_isPlain (List.all_eq_true.mp hplain c hc)) hafter]
  exact hmiddle

theorem spells_iff {text word : List Char} {b : Bool} (hword : word ∈ words b) :
    Spells text word ↔ (trim text).map Char.toLower = word := by
  have hcase : Recased (trim text) word ↔ (trim text).map Char.toLower = word := by
    rw [recased_iff, map_toLower_of_mem_words hword]
  refine ⟨fun h => hcase.mp (trim_of_spells hword h), fun h => ?_⟩
  obtain ⟨before, after, htext, hbefore, hafter⟩ := exists_trim text
  exact ⟨before, trim text, after, htext, hbefore, hafter, hcase.mpr h⟩

theorem ofChars?_eq_some_iff {text : List Char} {b : Bool} :
    ofChars? text = some b ↔ ∃ word ∈ words b, Spells text word := by
  have hspelled : (∃ word ∈ words b, Spells text word) ↔
      (trim text).map Char.toLower ∈ words b := by
    constructor
    · rintro ⟨word, hword, hspells⟩
      rw [(spells_iff hword).mp hspells]
      exact hword
    · exact fun hmem => ⟨_, hmem, (spells_iff hmem).mpr rfl⟩
  rw [hspelled, ofChars?]
  cases b with
  | true =>
    show _ ↔ _ ∈ onWords
    split
    · exact iff_of_true rfl ‹_›
    · refine iff_of_false ?_ ‹_›
      split <;> nofun
  | false =>
    show _ ↔ _ ∈ offWords
    split
    · rename_i hon
      exact iff_of_false nofun (not_mem_words (b := true) hon)
    · split
      · exact iff_of_true rfl ‹_›
      · exact iff_of_false nofun ‹_›

theorem read_eq_ok_iff {v : Variable} {text : String} {b : Bool} :
    read v text = .ok b ↔ ∃ word ∈ words b, Spells text.toList word := by
  rw [← ofChars?_eq_some_iff, read, ofText?]
  cases ofChars? text.toList with
  | none => exact iff_of_false nofun nofun
  | some c => exact ⟨fun h => by cases h; rfl, fun h => by cases h; rfl⟩

theorem read_eq_error {v : Variable} {text : String}
    (h : ∀ b, ∀ word ∈ words b, ¬ Spells text.toList word) :
    read v text = .error (.invalidValue v text) := by
  cases hread : ofChars? text.toList with
  | none => rw [read, ofText?, hread]
  | some b =>
    obtain ⟨word, hword, hspells⟩ := ofChars?_eq_some_iff.mp hread
    exact absurd hspells (h b word hword)

/-! ## Texts that are alike -/

theorem Spells.padded {text word before after : List Char} (h : Spells text word)
    (hbefore : AllBlank before) (hafter : AllBlank after) :
    Spells (before ++ text ++ after) word := by
  obtain ⟨before', middle, after', rfl, hbefore', hafter', hmiddle⟩ := h
  refine ⟨before ++ before', middle, after' ++ after, ?_, hbefore.append hbefore',
    hafter'.append hafter, hmiddle⟩
  simp only [List.append_assoc]

theorem ofChars?_of_recased {cs ds : List Char} (h : Recased cs ds) :
    ofChars? cs = ofChars? ds := by
  have hsame : (trim cs).map Char.toLower = (trim ds).map Char.toLower := by
    rw [← trim_map_toLower, recased_iff.mp h, trim_map_toLower]
  rw [ofChars?, ofChars?, hsame]

/-- Blanks alone spell no word. -/
theorem not_spells_of_allBlank {text word : List Char} {b : Bool} (hword : word ∈ words b)
    (h : AllBlank text) : ¬ Spells text word := by
  intro hspells
  have htrim : trim text = [] := by
    have hnone : AllBlank [] := nofun
    have hplain : ∀ c ∈ ([] : List Char), isBlank c = false := nofun
    have hall := trim_append h hplain hnone
    rwa [List.append_nil, List.append_nil] at hall
  have hnil := (spells_iff hword).mp hspells
  rw [htrim] at hnil
  exact ne_nil_of_mem_words hword hnil.symm

/-! ## How a variable is read -/

/-- How the value of a variable is read. -/
structure ReadsSwitch (v : Variable) (text : String) : Prop where
  on : read v text = .ok true ↔
    ∃ word ∈ ["1", "true", "on", "yes"], Spells text.toList word.toList
  off : read v text = .ok false ↔
    ∃ word ∈ ["0", "false", "off", "no"], Spells text.toList word.toList
  /-- Anything else is refused, and the error has the value as it is. -/
  refused : (∀ word ∈ ["1", "true", "on", "yes", "0", "false", "off", "no"],
    ¬ Spells text.toList word.toList) → read v text = .error (.invalidValue v text)
  padded : ∀ b before after, AllBlank before.toList → AllBlank after.toList →
    read v text = .ok b → read v (before ++ text ++ after) = .ok b
  recased : ∀ b text', Recased text.toList text'.toList →
    read v text = .ok b → read v text' = .ok b
  /-- Between the blanks there are digits and ASCII letters, and nothing else. -/
  plain : ∀ b, read v text = .ok b → ∃ before middle after,
    text.toList = before ++ middle ++ after ∧ AllBlank before ∧ AllBlank after ∧
      middle ≠ [] ∧ middle.all isPlain = true
  blank : AllBlank text.toList → read v text = .error (.invalidValue v text)

/-- Whichever variable it is and whatever its value, it is read as a switch if and only if it is a
spelling of one of the eight words. -/
theorem switches_read (v : Variable) (text : String) : ReadsSwitch v text where
  on := by
    rw [read_eq_ok_iff]
    simp only [words, onWords, List.mem_map, exists_exists_and_eq_and]
  off := by
    rw [read_eq_ok_iff]
    simp only [words, offWords, List.mem_map, exists_exists_and_eq_and]
  refused h := by
    refine read_eq_error fun b word hword => ?_
    have hlisted : ∃ w ∈ ["1", "true", "on", "yes", "0", "false", "off", "no"],
        w.toList = word := by
      cases b
      all_goals
        obtain ⟨w, hw, rfl⟩ := List.mem_map.mp hword
        refine ⟨w, ?_, rfl⟩
        simp only [List.mem_cons, List.not_mem_nil, or_false] at hw ⊢
        tauto
    obtain ⟨w, hw, rfl⟩ := hlisted
    exact h w hw
  padded b before after hbefore hafter hread := by
    obtain ⟨word, hword, hspells⟩ := read_eq_ok_iff.mp hread
    refine read_eq_ok_iff.mpr ⟨word, hword, ?_⟩
    rw [String.toList_append, String.toList_append]
    exact hspells.padded hbefore hafter
  recased b text' hcase hread := by
    rw [read_eq_ok_iff, ← ofChars?_eq_some_iff] at hread ⊢
    rw [← ofChars?_of_recased hcase, hread]
  plain b hread := by
    obtain ⟨word, hword, before, middle, after, htext, hbefore, hafter, hmiddle⟩ :=
      read_eq_ok_iff.mp hread
    refine ⟨before, middle, after, htext, hbefore, hafter, ?_,
      isPlain_of_recased hmiddle (isPlain_of_mem_words hword)⟩
    rintro rfl
    exact ne_nil_of_mem_words hword (List.forall₂_nil_left_iff.mp hmiddle)
  blank h := read_eq_error fun _ _ hword => not_spells_of_allBlank hword h

/-- A blank may be any character with the property, but a letter that only looks like one is not
taken for it. -/
example : read .fatalChecks "\u2003oN\u0085" = .ok true ∧
    read .fatalChecks "\u2003\u043En" = .error (.invalidValue .fatalChecks "\u2003\u043En") := by
  decide +kernel

end Switch

end ObjectBoundary
