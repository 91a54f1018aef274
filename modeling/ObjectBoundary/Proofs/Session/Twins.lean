import ObjectBoundary.Proofs.Acts.Twins
import ObjectBoundary.Proofs.Session.Undisturbed

/-!
# Sessions with fatal and with other checks

Two processes that differ in whether failed checks are fatal cannot be told apart, unless they are
asked for their settings, until a check fails. That is the same check in the same step of both.

* `Answer.error?`: the first line of an answer that reports a failed check.
* `State.Agrees`: a step does the same in two states.
* `Twins.step`, `Twins.along`: twin states agree until a check fails.
* `agree_until_failure`: so do two processes from the start.
-/

namespace ObjectBoundary.Session

open ObjectBoundary Act

variable {s t : State} {x : Step} {p : Plan}

/-! ## Lines that report a failed check -/

def isErrorLine (line : String) : Bool := "ERROR ".toList.isPrefixOf line.toList

/-- The first line that reports a failed check. -/
def Answer.error? (a : Answer) : Option String := a.lines.find? isErrorLine

/-- Only failed checks are reported as such. -/
theorem isErrorLine_line? {name : Id → String} {e : Event} {line : String}
    (h : e.line? name = some line) : isErrorLine line = e.isFailure := by
  cases e <;> cases h <;> simp [isErrorLine, Event.isFailure, List.isPrefixOf]

theorem find?_of_clean {name : Id → String} {m : List Event} (hm : Clean m) :
    (m.filterMap (Event.line? name)).find? isErrorLine = none := by
  rw [List.find?_eq_none]
  intro line hline
  obtain ⟨e, he, hshown⟩ := List.mem_filterMap.mp hline
  rw [isErrorLine_line? hshown, hm e he]
  exact Bool.false_ne_true

theorem find?_of_prefix {name : Id → String} {m log : List Event} {failure : Failure}
    (hm : Clean m) (h : m ++ [.failed failure] <+: log) :
    (log.filterMap (Event.line? name)).find? isErrorLine =
      some ("ERROR " ++ failure.message) := by
  obtain ⟨rest, rfl⟩ := h
  have herror : isErrorLine ("ERROR " ++ failure.message) = true :=
    isErrorLine_line? (show (Event.failed failure).line? name = _ from rfl)
  rw [List.filterMap_append, List.filterMap_append, List.append_assoc, List.find?_append,
    find?_of_clean hm, Option.none_or]
  show ((("ERROR " ++ failure.message) :: []) ++ _).find? isErrorLine = _
  rw [List.singleton_append, List.find?_cons_of_pos herror]

/-! ## Twin states -/

namespace State

/-- A step that the process does not refuse. -/
def accepts (s : State) (x : Step) : Bool :=
  match (s.step x).1.outcome with
  | .refused _ => false
  | _ => true

/-- A step that is not refused has led to the world that its act leads to. -/
theorem accepts_cases (h : s.accepts x = true) :
    ∃ p, x.plan s.slots = .ok p ∧ nameIsFree s.slots p = true ∧
      ((∃ value slot w', p.act .normal s.begun = (.done (value, slot), w') ∧
          (s.step x).1.outcome = .done value ∧ (s.step x).2.world = w') ∨
        (∃ failure w', p.act .normal s.begun = (.unwound failure, w') ∧
          (s.step x).2.world = w') ∨
        ∃ failure w', p.act .normal s.begun = (.aborted failure, w') ∧
          (s.step x).1.outcome = .aborted failure ∧ (s.step x).2.world = w') := by
  cases hp : x.plan s.slots with
  | error misuse =>
    rw [accepts, step, hp] at h
    cases h
  | ok p =>
    cases hfree : nameIsFree s.slots p with
    | false =>
      rw [accepts, step, hp] at h
      simp [hfree] at h
    | true =>
      refine ⟨p, rfl, hfree, ?_⟩
      rcases hr : p.act .normal s.begun with ⟨⟨value, slot⟩ | failure | failure | misuse, w'⟩
      · rw [step_of_done hp hfree hr]
        exact Or.inl ⟨value, slot, w', rfl, rfl, rfl⟩
      · rw [step_of_unwound hp hfree hr]
        exact Or.inr (Or.inl ⟨failure, w', rfl, rfl⟩)
      · rw [step_of_aborted hp hfree hr]
        exact Or.inr (Or.inr ⟨failure, w', rfl, rfl, rfl⟩)
      · have hcarry : s.carryOut p = (.refused misuse, s.begun, s.slots) := by
          unfold begun at hr ⊢
          rw [carryOut, hr]
        rw [accepts, step_of_plan hp hfree, hcarry] at h
        cases h

/-- However its act ends, it is not refused either. -/
theorem world_of_accepts (h : s.accepts x = true) :
    ∃ p, x.plan s.slots = .ok p ∧ nameIsFree s.slots p = true ∧
      (s.step x).2.world = (p.act .normal s.begun).2 ∧
      ∀ m, (p.act .normal s.begun).1 ≠ .refused m := by
  obtain ⟨p, hp, hfree, hcases⟩ := accepts_cases h
  refine ⟨p, hp, hfree, ?_⟩
  rcases hcases with ⟨_, _, w', hact, -, hworld⟩ | ⟨_, w', hact, hworld⟩ |
    ⟨_, w', hact, -, hworld⟩ <;>
    exact ⟨by rw [hact, hworld], fun m hm => by rw [hact] at hm; cases hm⟩

/-- A step that is not refused and in which no check fails. -/
def Passes (s : State) (x : Step) : Prop := s.accepts x = true ∧ (s.step x).1.error? = none

/-- A step answers and does the same in two states. Only what it tells of the settings in force may
differ. -/
structure Agrees (s t : State) (x : Step) : Prop where
  outcome : x = .process .currentSettings ∨ (s.step x).1.outcome = (t.step x).1.outcome
  lines : (s.step x).1.lines = (t.step x).1.lines
  states : (s.step x).1.states = (t.step x).1.states
  store : (s.step x).2.world.store = (t.step x).2.world.store
  slots : (s.step x).2.slots = (t.step x).2.slots

/-- All steps agree, one after the other. -/
def Agree (s t : State) : List Step → Prop
  | [] => True
  | x :: xs => s.Agrees t x ∧ (s.step x).2.Agree (t.step x).2 xs

/-- States with the same slots whose worlds are twins. -/
structure Twins (s t : State) : Prop where
  world : s.world.Twins t.world
  slots : t.slots = s.slots

end State

/-- What two carried out plans have in common: they have led to twins, or the same check has failed
first in both that were not refused. -/
inductive Parallel : Outcome Value × World × Slots → Outcome Value × World × Slots → Prop
  | together {o : Outcome Value} {w w' : World} (slots : Slots) : w.Twins w' → Clean w.log →
    Parallel (o, w, slots) (o, w', slots)
  | apart {r r' : Outcome Value × World × Slots} (m : List Event) (failure : Failure) : Clean m →
    ((∀ misuse, r.1 ≠ .refused misuse) → m ++ [.failed failure] <+: r.2.1.log) →
    ((∀ misuse, r'.1 ≠ .refused misuse) → m ++ [.failed failure] <+: r'.2.1.log) →
    Parallel r r'

namespace State

theorem log_carryOut (s : State) (p : Plan) :
    (∀ misuse, (s.carryOut p).1 ≠ .refused misuse) →
      (s.carryOut p).2.1.log = (p.act .normal s.begun).2.log := by
  unfold carryOut begun
  rcases p.act .normal { s.world with log := [] } with ⟨⟨value, slot⟩ | _ | _ | misuse, w⟩
  · exact fun _ => rfl
  · exact fun _ => rfl
  · exact fun _ => rfl
  · exact fun h => absurd rfl (h misuse)

theorem Twins.begun (h : s.Twins t) : s.begun.Twins t.begun := by
  have hworld := h.world
  unfold State.begun
  generalize s.world = w at hworld
  generalize t.world = w' at hworld
  cases hworld
  exact .intro ..

theorem Twins.carryOut (h : s.Twins t)
    (hc : Concurs [] (p.act .normal s.begun) (p.act .normal t.begun)) :
    Parallel (s.carryOut p) (t.carryOut p) := by
  have hl := s.log_carryOut p
  have hl' := t.log_carryOut p
  have hbegun := h.begun
  unfold State.carryOut at *
  change s.begun.Twins t.begun at hbegun
  rw [h.slots] at *
  unfold State.begun at *
  generalize p.act .normal { s.world with log := [] } = r at hc hl ⊢
  generalize p.act .normal { t.world with log := [] } = r' at hc hl' ⊢
  cases hc with
  | @together o w w' m htwins hm hlog =>
    have hclean : Clean w.log := hlog ▸ hm
    rcases o with ⟨value, slot⟩ | _ | _ | misuse
    · exact .together _ htwins hclean
    · exact .together _ htwins hclean
    · exact .together _ htwins hclean
    · exact .together _ hbegun clean_nil
  | apart m failure hm hr hr' =>
    exact .apart m failure hm (fun hs => hl hs ▸ hr) fun ht => hl' ht ▸ hr'

theorem accepts_iff (s : State) (x : Step) :
    s.accepts x = true ↔ ∀ misuse, (s.step x).1.outcome ≠ .refused misuse := by
  unfold accepts
  cases (s.step x).1.outcome <;> simp

theorem passes_of_step {a : Answer} (h : s.step x = (a, t))
    (ha : ∀ misuse, a.outcome ≠ .refused misuse) (herror : a.error? = none) : s.Passes x := by
  refine ⟨(accepts_iff s x).mpr ?_, ?_⟩ <;> rw [h]
  · exact ha
  · exact herror

theorem passes_of_all {x : Step} (hx : s.accepts x = true)
    (hlog : (s.step x).2.world.log.all (fun e => !e.isFailure) = true) : s.Passes x := by
  refine ⟨hx, ?_⟩
  cases hp : x.plan s.slots with
  | error misuse =>
    rw [accepts, State.step, hp] at hx
    cases hx
  | ok p =>
    cases hfree : nameIsFree s.slots p with
    | false =>
      rw [accepts, State.step, hp] at hx
      simp [hfree] at hx
    | true =>
      rw [step_of_plan hp hfree] at hlog ⊢
      refine find?_of_clean fun e he => ?_
      simpa using List.all_eq_true.mp hlog e he

/-- Telling the settings in force changes nothing. -/
theorem Twins.currentSettings (h : s.Twins t) :
    let x : Step := .process .currentSettings
    s.Agrees t x ∧ s.Passes x ∧ t.Passes x ∧ (s.step x).2.Twins (t.step x).2 := by
  obtain ⟨w, slots⟩ := s
  obtain ⟨w', slots'⟩ := t
  obtain ⟨hworld, hslots⟩ := h
  change slots' = slots at hslots
  subst hslots
  cases hworld with
  | intro e c b b' d st log =>
    exact ⟨⟨Or.inl rfl, rfl, rfl, rfl, rfl⟩, ⟨rfl, rfl⟩, ⟨rfl, rfl⟩, .intro .., rfl⟩

/-- Twin states agree in a step, and are twins after it, unless a check fails in it. The check that
fails first is the same. -/
theorem Twins.step (h : s.Twins t) (hs : s.accepts x = true) :
    (s.Agrees t x ∧ s.Passes x ∧ t.Passes x ∧ (s.step x).2.Twins (t.step x).2) ∨
      ∃ line, (s.step x).1.error? = some line ∧
        (t.accepts x = true → (t.step x).1.error? = some line) := by
  by_cases hx : x = .process .currentSettings
  · subst hx
    exact Or.inl h.currentSettings
  have haccepts := (accepts_iff s x).mp hs
  cases hp : x.plan s.slots with
  | error misuse =>
    rw [State.step, hp] at haccepts
    exact absurd rfl (haccepts misuse)
  | ok p =>
    cases hfree : nameIsFree s.slots p with
    | false =>
      rw [State.step, hp] at haccepts
      simp only [hfree, Bool.false_eq_true, if_false] at haccepts
      exact absurd rfl (haccepts .taken)
    | true =>
      have hstep := step_of_plan hp hfree
      have hstep' : t.step x = _ := step_of_plan (h.slots.symm ▸ hp) (h.slots.symm ▸ hfree)
      have hconcurs := (Step.composed hp hx).concurs h.begun .normal
      have hparallel := h.carryOut hconcurs
      have hstore : t.world.store = s.world.store := h.world.store
      rw [accepts_iff, hstep']
      rw [hstep] at haccepts
      generalize s.carryOut p = r at *
      generalize t.carryOut p = r' at *
      cases hparallel with
      | @together o w w' slots htwins hclean =>
        have hanswer : answerTo t.world o w' = answerTo s.world o w := by
          simp only [answerTo, hstore, htwins.store, htwins.log]
        have hquiet : (answerTo s.world o w).error? = none := find?_of_clean hclean
        rw [hanswer] at hstep'
        refine Or.inl ⟨?_, passes_of_step hstep haccepts hquiet,
          passes_of_step hstep' haccepts hquiet, ?_⟩
        · refine ⟨Or.inr ?_, ?_, ?_, ?_, ?_⟩ <;> rw [hstep, hstep']
          exact htwins.store.symm
        · rw [hstep]
          exact ⟨htwins, rfl⟩
      | apart m failure hm hr hr' =>
        refine Or.inr ⟨"ERROR " ++ failure.message, ?_, ?_⟩
        · rw [hstep]
          exact find?_of_prefix hm (hr haccepts)
        · intro ht
          exact find?_of_prefix hm (hr' ht)

/-- Twin states agree in all steps before the first one in which a check fails. -/
theorem Twins.along {xs : List Step} (h : s.Twins t) (hxs : s.All Passes xs) :
    s.Agree t xs ∧ t.All Passes xs ∧ (s.after xs).Twins (t.after xs) := by
  induction xs generalizing s t with
  | nil => exact ⟨trivial, trivial, h⟩
  | cons x xs ih =>
    obtain ⟨hx, hxs⟩ := hxs
    rcases h.step hx.1 with ⟨hagrees, -, hpasses, htwins⟩ | ⟨line, hline, -⟩
    · obtain ⟨hagree, hall, hafter⟩ := ih htwins hxs
      exact ⟨⟨hagrees, hagree⟩, ⟨hpasses, hall⟩, hafter⟩
    · rw [hx.2] at hline
      cases hline

theorem twins_initial (e : Environment) (shutdownChecks fatal fatal' : Bool) :
    (State.initial e (some ⟨fatal, shutdownChecks⟩)).Twins
      (State.initial e (some ⟨fatal', shutdownChecks⟩)) :=
  ⟨.intro .., rfl⟩

end State

/-- Whether failed checks are fatal makes no difference to a session until a check fails: all steps
before give the same answers and lead to the same entities, and the first check that fails is the
same in the same step. -/
theorem agree_until_failure (e : Environment) (shutdownChecks fatal fatal' : Bool)
    (xs : List Step) (x : Step) :
    let s := State.initial e (some ⟨fatal, shutdownChecks⟩)
    let t := State.initial e (some ⟨fatal', shutdownChecks⟩)
    s.All State.Passes xs → (s.after xs).accepts x = true → (t.after xs).accepts x = true →
      s.Agree t xs ∧ t.All State.Passes xs ∧
        ((s.after xs).step x).1.error? = ((t.after xs).step x).1.error? ∧
        (((s.after xs).step x).1.error? = none → (s.after xs).Agrees (t.after xs) x) := by
  intro s t hxs hs ht
  have htwins : s.Twins t := State.twins_initial e shutdownChecks fatal fatal'
  obtain ⟨hagree, hall, hafter⟩ := htwins.along hxs
  refine ⟨hagree, hall, ?_⟩
  rcases hafter.step hs with ⟨hagrees, hpass, hpass', -⟩ | ⟨line, hline, hline'⟩
  · exact ⟨hpass.2.trans hpass'.2.symm, fun _ => hagrees⟩
  · refine ⟨hline.trans (hline' ht).symm, ?_⟩
    intro hnone
    rw [hline] at hnone
    cases hnone

/-- An object is wrapped, and its wrapper takes a further reference. -/
def referredTo : List Step :=
  [.create (.sharedObject ⟨.client 7, none⟩) "a", .shared (.wrap .client (some "a") "w"),
    .struct (.call "w" "add_ref" .itself)]

/-- The wrapper of a parent interface is unwrapped as one of the child. -/
theorem agree_until_failure_otherClass :
    let s := State.initial {} (some ⟨true, true⟩)
    let t := State.initial {} (some ⟨false, true⟩)
    let x : Step := .shared (.unwrap .child (some "w") "b")
    s.Agree t referredTo ∧
      ((s.after referredTo).step x).1.error? = ((t.after referredTo).step x).1.error? ∧
      (s.after referredTo).isDone x = false ∧ (t.after referredTo).isDone x = true := by
  have hpasses : (State.initial {} (some ⟨true, true⟩)).All State.Passes referredTo :=
    ⟨State.passes_of_all rfl rfl, State.passes_of_all rfl rfl, State.passes_of_all rfl rfl, trivial⟩
  obtain ⟨hagree, -, hline, -⟩ := agree_until_failure {} true true false referredTo
    (.shared (.unwrap .child (some "w") "b")) hpasses rfl rfl
  exact ⟨hagree, hline, rfl, rfl⟩

end ObjectBoundary.Session
