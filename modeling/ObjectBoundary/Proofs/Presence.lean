import ObjectBoundary.Class

/-!
# Which members are present

The size that a structure records decides which of its words are present: as many from its
beginning as the size has room for. So members that an older revision of an interface lacks are the
last ones, and a member that is present stays so in a larger structure.

* `Layout.offsets`: where the words of nested structures lie.
* `Structure.room`: how many words the recorded size has room for.
* `Structure.ExactAt`: the check of a member by its address, in machine words.
* `Structure.PresentBySize`, `Structure.presentBySize`: what the recorded size decides.
* `Structure.IsWhole`: a structure that has all its members.
-/

namespace ObjectBoundary

/-! ## Where words lie -/

namespace Layout

/-- Where the words of a structure lie, the recorded size first. A structure begins with that of its
base, and its own members follow where the base ends. -/
def offsets : Layout → List Nat
  | root _ members => (List.range (members.length + 1)).map (wordSize * ·)
  | extending base _ members =>
    base.offsets ++ (List.range members.length).map (base.byteSize + wordSize * ·)

/-- However structures are nested, their words leave no gaps. -/
theorem offsets_eq (l : Layout) :
    l.offsets = (List.range (l.names.length + 1)).map (wordSize * ·) := by
  induction l with
  | root title members => rfl
  | extending base title members ih =>
    have hrange : List.range ((base.names ++ members).length + 1) =
        List.range (base.names.length + 1) ++
          (List.range members.length).map (base.names.length + 1 + ·) := by
      rw [List.length_append, Nat.add_right_comm]
      exact List.range_add
    rw [offsets, ih, names, hrange, List.map_append, List.map_map]
    refine congrArg _ (List.map_congr_left fun i _ => ?_)
    show wordSize * (1 + base.names.length) + wordSize * i =
      wordSize * (base.names.length + 1 + i)
    rw [← Nat.mul_add, Nat.add_comm 1]

/-- A structure of this layout can begin at an address: memory does not end before it. -/
def FitsAt (l : Layout) (start : UInt64) : Prop :=
  0 < start.toNat ∧ start.toNat + l.byteSize ≤ UInt64.size

end Layout

namespace Structure

/-! ## Reports on words -/

section Reports

variable {s : Structure} {i : Nat} {r : MemberReport}

/-- How many words the recorded size has room for. A word of which a part is missing has none. -/
def room (s : Structure) : Nat := s.size.toNat / Layout.wordSize

theorem coversWord_iff (s : Structure) (i : Nat) :
    s.coversWord (Layout.wordSize * i) = true ↔ i < s.room := by
  rw [coversWord, decide_eq_true_iff, room, ← Nat.mul_succ, Nat.lt_iff_add_one_le,
    Nat.le_div_iff_mul_le (by decide), Nat.mul_comm]

theorem length_survey (s : Structure) : s.survey.length = s.layout.names.length + 1 := by
  rw [survey, List.length_cons, List.length_mapIdx]

theorem survey_succ (s : Structure) (i : Nat) : s.survey[i + 1]? = s.layout.names[i]?.map
    fun name => ⟨name, Layout.offset i, s.covers i, some (!s.offers i)⟩ := by
  rw [survey, List.getElem?_cons_succ, List.getElem?_mapIdx]

theorem offset_of_survey (h : s.survey[i]? = some r) : r.offset = Layout.wordSize * i := by
  cases i with
  | zero =>
    cases h
    rfl
  | succ i =>
    obtain ⟨name, -, rfl⟩ := Option.map_eq_some_iff.mp ((survey_succ s i).symm.trans h)
    rw [Layout.offset, Nat.add_comm 1]

theorem covered_eq (h : r ∈ s.survey) : r.covered = s.coversWord r.offset := by
  rcases List.mem_cons.mp h with rfl | h
  · rfl
  · obtain ⟨i, hi, rfl⟩ := List.mem_mapIdx.mp h
    rfl

/-- A word is covered if and only if there is room for the words up to its own. -/
theorem covered_iff (h : s.survey[i]? = some r) : r.covered = true ↔ i < s.room := by
  rw [covered_eq (List.mem_of_getElem? h), offset_of_survey h, coversWord_iff]

theorem lt_of_survey (h : s.survey[i]? = some r) : i < s.layout.names.length + 1 := by
  rw [← length_survey]
  exact (List.getElem?_eq_some_iff.mp h).1

theorem offset_add_le (h : r ∈ s.survey) : r.offset + Layout.wordSize ≤ s.layout.byteSize := by
  obtain ⟨i, hi⟩ := List.mem_iff_getElem?.mp h
  have hlt := lt_of_survey hi
  rw [offset_of_survey hi, ← Nat.mul_succ, Layout.byteSize]
  exact Nat.mul_le_mul_left _ (by omega)

theorem map_offset_survey (s : Structure) :
    s.survey.map MemberReport.offset = s.layout.offsets := by
  rw [Layout.offsets_eq]
  refine List.ext_getElem ?_ fun i hi _ => ?_
  · rw [List.length_map, List.length_map, List.length_range, length_survey]
  · rw [List.length_map] at hi
    rw [List.getElem_map, List.getElem_map, List.getElem_range]
    exact offset_of_survey (List.getElem?_eq_getElem hi)

theorem map_covered_survey (s : Structure) : s.survey.map MemberReport.covered =
    List.replicate (min (s.layout.names.length + 1) s.room) true ++
      List.replicate (s.layout.names.length + 1 - s.room) false := by
  refine List.ext_getElem ?_ fun i hi _ => ?_
  · rw [List.length_map, length_survey, List.length_append, List.length_replicate,
      List.length_replicate]
    omega
  · rw [List.length_map] at hi
    have hiff := covered_iff (List.getElem?_eq_getElem hi)
    rw [length_survey] at hi
    rw [List.getElem_map, Bool.eq_iff_iff, hiff, List.getElem_append]
    split
    · rename_i hroom
      rw [List.length_replicate] at hroom
      rw [List.getElem_replicate]
      exact iff_of_true (by omega) rfl
    · rename_i hroom
      rw [List.length_replicate] at hroom
      rw [List.getElem_replicate]
      exact iff_of_false (by omega) Bool.false_ne_true

theorem missing_iff {name : String} (h : s.layout.names[i]? = some name) :
    ∃ r, s.survey[i + 1]? = some r ∧ r.name = name ∧
      ∃ m, r.missing = some m ∧ (m = true ↔ r.covered = false ∨ s.isSet i = false) := by
  refine ⟨_, by rw [survey_succ, h, Option.map_some], rfl, !s.offers i, rfl, ?_⟩
  rw [offers, Bool.not_and, Bool.or_eq_true, Bool.not_eq_true', Bool.not_eq_true']

end Reports

/-! ## Checks on machine words -/

/-- The check of a member as it is made: its distance from the beginning of the structure, and one
word more, is compared with the recorded size. -/
def containsAt (s : Structure) (start member : UInt64) : Bool :=
  decide (member - start + Layout.wordSize.toUInt64 ≤ s.size)

/-- Nothing overflows when a member is checked for. -/
structure ExactAt (s : Structure) (start : UInt64) (r : MemberReport) : Prop where
  address : (start + r.offset.toUInt64).toNat = start.toNat + r.offset
  difference : start ≤ start + r.offset.toUInt64
  sum : (start + r.offset.toUInt64 - start).toNat + Layout.wordSize < UInt64.size
  covered : s.containsAt start (start + r.offset.toUInt64) = r.covered

theorem exactAt {s : Structure} {start : UInt64} {r : MemberReport} (hfits : s.layout.FitsAt start)
    (hr : r ∈ s.survey) : s.ExactAt start r := by
  obtain ⟨hpos, hend⟩ := hfits
  have hle := offset_add_le hr
  have hword : Layout.wordSize = 8 := rfl
  have hmemory : UInt64.size = 2 ^ 64 := rfl
  have hoffset : r.offset.toUInt64.toNat = r.offset := UInt64.toNat_ofNat_of_lt' (by omega)
  have haddress : (start + r.offset.toUInt64).toNat = start.toNat + r.offset := by
    rw [UInt64.toNat_add, hoffset]
    exact Nat.mod_eq_of_lt (by omega)
  have hdifference : start ≤ start + r.offset.toUInt64 := by
    rw [UInt64.le_iff_toNat_le, haddress]
    omega
  have hdistance : (start + r.offset.toUInt64 - start).toNat = r.offset := by
    rw [UInt64.toNat_sub_of_le _ _ hdifference, haddress]
    omega
  have hsum : (start + r.offset.toUInt64 - start + Layout.wordSize.toUInt64).toNat =
      r.offset + Layout.wordSize := by
    rw [UInt64.toNat_add, hdistance]
    exact Nat.mod_eq_of_lt (show r.offset + Layout.wordSize < 2 ^ 64 by omega)
  refine ⟨haddress, hdifference, by rw [hdistance]; omega, ?_⟩
  rw [covered_eq hr, containsAt, coversWord, decide_eq_decide, UInt64.le_iff_toNat_le, hsum]

/-! ## What the recorded size decides -/

/-- The recorded size decides which words of a structure are present. -/
structure PresentBySize (s : Structure) : Prop where
  offsets : s.survey.map MemberReport.offset = s.layout.offsets
  /-- The words that there is room for come first, and the recorded size is one of them. -/
  present : s.survey.map MemberReport.covered =
    List.replicate (min (s.layout.names.length + 1) (s.size.toNat / 8)) true ++
      List.replicate (s.layout.names.length + 1 - s.size.toNat / 8) false
  missing : ∀ i name, s.layout.names[i]? = some name →
    ∃ r, s.survey[i + 1]? = some r ∧ r.name = name ∧
      ∃ m, r.missing = some m ∧ (m = true ↔ r.covered = false ∨ s.isSet i = false)
  earlier : ∀ (i j : Nat) (r r' : MemberReport), i ≤ j → s.survey[i]? = some r →
    s.survey[j]? = some r' → r'.covered = true → r.covered = true
  monotone : ∀ (size : UInt64) (i : Nat) (r r' : MemberReport), s.size ≤ size →
    s.survey[i]? = some r → (s.withSize size).survey[i]? = some r' →
      r.covered = true → r'.covered = true
  exact : ∀ start, s.layout.FitsAt start → ∀ r ∈ s.survey, s.ExactAt start r

theorem presentBySize (s : Structure) : s.PresentBySize where
  offsets := map_offset_survey s
  present := map_covered_survey s
  missing _ _ h := missing_iff h
  earlier i j r r' hle hi hj hcovered :=
    (covered_iff hi).mpr (Nat.lt_of_le_of_lt hle ((covered_iff hj).mp hcovered))
  monotone size i r r' hle hi hi' hcovered := by
    have hroom : s.room ≤ (s.withSize size).room :=
      Nat.div_le_div_right (UInt64.le_iff_toNat_le.mp hle)
    exact (covered_iff hi').mpr (Nat.lt_of_lt_of_le ((covered_iff hi).mp hcovered) hroom)
  exact _ hfits _ hr := exactAt hfits hr

/-- A size that ends within a member does not cover it. -/
example : ((full Layout.sharedChild []).withSize 47).survey.map MemberReport.covered =
    [true, true, true, true, true, false, false] := by decide

/-! ## New structures -/

/-- A structure records its full size, so that every member is present. -/
structure IsWhole (s : Structure) : Prop where
  size : s.size.toNat = s.layout.byteSize
  present : ∀ r ∈ s.survey, r.covered = true

theorem isWhole_full {l : Layout} (h : l.byteSize < UInt64.size) (set : List Bool) :
    (full l set).IsWhole := by
  have hsize : (full l set).size.toNat = l.byteSize := UInt64.toNat_ofNat_of_lt' h
  refine ⟨hsize, fun r hr => ?_⟩
  rw [covered_eq hr, coversWord, decide_eq_true_iff, hsize]
  exact offset_add_le hr

end Structure

theorem SharedClass.isWhole_newStruct (c : SharedClass) : c.newStruct.IsWhole := by
  have hclient : Layout.sharedClient.byteSize < UInt64.size := by decide
  have hchild : Layout.sharedChild.byteSize < UInt64.size := by decide
  have htable : ∀ width ∈ tableWidths, (Layout.table width).byteSize < UInt64.size := by decide
  refine Structure.isWhole_full ?_ _
  cases c with
  | client => exact hclient
  | child => exact hchild
  | bare tag isBare => exact hclient
  | table width isWidth => exact htable width isWidth

theorem OwnedClass.isWhole_newStruct (c : OwnedClass) (owns : Bool) :
    (c.newStruct owns).IsWhole := by
  have hclient : Layout.ownedClient.byteSize < UInt64.size := by decide
  have hchild : Layout.ownedChild.byteSize < UInt64.size := by decide
  refine Structure.isWhole_full ?_ _
  cases c with
  | client => exact hclient
  | child => exact hchild
  | bare tag isBare => exact hclient

end ObjectBoundary
