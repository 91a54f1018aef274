import ObjectBoundary.Proofs.Acts.Settled
import ObjectBoundary.Proofs.Session.Accord
import ObjectBoundary.Proofs.Session.Twins

/-!
# Sessions and their settings

The settings of a session are chosen once: by the first step that installs some, or by the first one
that looks at them, which brings those of the environment into force. Steps before that do the same
under all settings. No step after that is warned of anything or installs other settings, and the
session goes as if they had been in force from the start.

* `State.LeavesOpen`, `State.Installs`, `State.Resolves`, `State.Keeps`: what a step does to the
  settings.
* `State.Settling`: the courses that a session can take.
* `settings_resolved_once`: every session takes one of them.
-/

namespace ObjectBoundary.Session

open ObjectBoundary Act

variable {s t : State} {x : Step} {slots : Slots} {p : Plan} {w w' : World} {c : Settings}

/-! ## Lines that warn -/

def isWarningLine (line : String) : Bool := "WARN ".toList.isPrefixOf line.toList

/-- The line that warns of an environment without settings. -/
def warningLine (reason : SettingsError) : String :=
  "WARN falling back to the default wrapper configuration err=" ++ reason.message

theorem isWarningLine_line? {name : Id → String} {e : Event} {line : String}
    (h : e.line? name = some line) : isWarningLine line = e.isWarning := by
  cases e <;> cases h <;> simp [isWarningLine, Event.isWarning, List.isPrefixOf]

/-- The lines of a kind are those of the events of that kind. -/
theorem filter_lines {P : String → Bool} {Q : Event → Bool} (name : Id → String)
    (h : ∀ {e : Event} {line : String}, e.line? name = some line → P line = Q e)
    (log : List Event) : (log.filterMap (Event.line? name)).filter P =
      (log.filter Q).filterMap (Event.line? name) := by
  rw [List.filter_filterMap, List.filterMap_filter]
  refine congrArg (List.filterMap · log) (funext fun e => ?_)
  cases hline : e.line? name with
  | none => simp
  | some line => rw [← h hline, Option.filter_some]

namespace Answer

def warnings (a : Answer) : List String := a.lines.filter isWarningLine

/-- The same answer without warnings. -/
def unwarned (a : Answer) : Answer :=
  { a with lines := a.lines.filter fun line => !isWarningLine line }

theorem unwarned_of_warnings {a : Answer} (h : a.warnings = []) : a.unwarned = a := by
  have hlines : a.lines.filter (fun line => !isWarningLine line) = a.lines := by
    rw [List.filter_eq_self]
    intro line hline
    rw [Bool.not_eq_true', ← Bool.not_eq_true]
    exact List.filter_eq_nil_iff.mp h line hline
  rw [unwarned, hlines]

end Answer

/-! ## What the acts of steps do to the settings -/

theorem Step.heeds (h : x.plan slots = .ok p) : Respects World.Heeds p.act w := by
  by_cases hx : x = .process .currentSettings
  · subst hx
    cases h
    refine respects_bind (respects_bind heeds_settings fun _ _ _ => ?_) fun _ _ _ => ?_
    · exact respects_pure _
    · exact respects_pure _
  · exact (Step.composed h hx).heeds w

/-- A step that asks for the settings in force, checks for the start of shutdown or signals it. -/
def ProcessStep.consults : ProcessStep → Bool
  | shutDown | signalShutdown | requireRunning | currentSettings => true
  | _ => false

def Step.consults : Step → Bool
  | .process step => step.consults
  | _ => false

theorem settings_of_bind_pure {α β : Type} {act : Act α} {f : α → β} {ph : Phase}
    (h : (act ph w).2.settings = some c) :
    ((act >>= fun a => pure (f a)) ph w).2.settings = some c :=
  (onward_bind (fun _ _ => respects_pure _) ph w).later.settings c h

theorem ProcessStep.settings_of_consults {step : ProcessStep} (h : step.consults = true)
    (ph : Phase) (w : World) : (step.act ph w).2.settings = some w.inForce := by
  cases step with
  | shutDown => exact settings_of_bind_pure (settings_of_shutDown ph w)
  | signalShutdown => exact settings_of_bind_pure (settings_of_signalShutdown ph w)
  | requireRunning => exact settings_of_bind_pure (settings_of_requireRunning ph w)
  | currentSettings => exact settings_of_settings_bind (fun _ _ => respects_pure _) ph w
  | _ => cases h

theorem Step.settings_of_consults (hp : x.plan slots = .ok p) (hx : x.consults = true) (ph : Phase)
    (w : World) : (p.act ph w).2.settings = some w.inForce := by
  cases x with
  | process step =>
    cases hp
    exact settings_of_bind_pure (ProcessStep.settings_of_consults hx ph w)
  | _ => cases hx

/-- Only the steps that install settings depend on whether there are any. -/
theorem Step.foreseen (hp : x.plan slots = .ok p) (hx : ∀ d, x ≠ .process (.install d))
    (hw : w.Foreseen w') :
    Alongside World.Foreseen (p.act .normal w) (p.act .normal w') := by
  cases hapart : x.isApart with
  | false =>
    have hsupervised : Supervised .normal (fun _ => none) p.act := Step.supervised hp hapart
    exact hsupervised.foreseen hw
  | true =>
    cases x with
    | process step =>
      cases hp
      refine alongside_bind ?_ fun _ _ _ h => ⟨rfl, h⟩
      cases step with
      | shutDown => exact alongside_bind (foreseen_shutDown hw) fun _ _ _ h => ⟨rfl, h⟩
      | signalShutdown => exact alongside_bind (foreseen_signalShutdown hw) fun _ _ _ h => ⟨rfl, h⟩
      | hasShutDown =>
        exact ⟨congrArg (fun b => Outcome.done (Value.flag b)) hw.isShutdown.symm, hw⟩
      | currentSettings => exact foreseen_settings_bind hw fun _ _ _ h => ⟨rfl, .told h⟩
      | install d => exact absurd rfl (hx d)
      | _ => cases hapart
    | _ => cases hapart

/-- A step that leaves the settings open does the same under all settings and, unless it asks for
the start of shutdown, whether that has begun or not. -/
theorem Step.unaffected (hp : x.plan slots = .ok p) (hx : ∀ d, x ≠ .process (.install d))
    (hw : w.settings = none) (hopen : (p.act .normal w).2.settings = none) {b : Bool}
    (hb : x = .process .hasShutDown → b = w.isShutdown) :
    p.act .normal (w.under c b) = ((p.act .normal w).1, (p.act .normal w).2.under c b) := by
  cases hapart : x.isApart with
  | false =>
    have hsupervised : Supervised .normal (fun _ => none) p.act := Step.supervised hp hapart
    exact hsupervised.unaffected hw hopen c b
  | true =>
    have hconsults : x.consults = false := by
      rw [← Bool.not_eq_true]
      intro hconsults
      rw [Step.settings_of_consults hp hconsults] at hopen
      cases hopen
    cases x with
    | process step =>
      cases step with
      | hasShutDown =>
        cases hp
        rw [hb rfl]
        rfl
      | install d => exact absurd rfl (hx d)
      | shutDown | signalShutdown | currentSettings => cases hconsults
      | _ => cases hapart
    | _ => cases hapart

/-! ## What steps do to the settings -/

namespace State

/-- The same state with settings in force, and with shutdown begun or not. -/
def under (s : State) (c : Settings) (isShutdown : Bool) : State :=
  ⟨s.world.under c isShutdown, s.slots⟩

/-- A step that leaves the settings open. It installs none, no check fails in it, and it warns of
nothing. If it is not refused it does not ask for the settings nor check for the start of shutdown,
and it does the same under all settings, whether shutdown has begun or not. -/
structure LeavesOpen (s : State) (x : Step) : Prop where
  settings : (s.step x).2.world.settings = none
  installs : ∀ d, x ≠ .process (.install d)
  errors : (s.step x).1.lines.filter isErrorLine = []
  warnings : (s.step x).1.warnings = []
  consults : s.accepts x = true → x.consults = false
  unaffected : s.accepts x = true → ∀ (c : Settings) (b : Bool),
    (x = .process .hasShutDown → b = s.world.isShutdown) →
      (s.under c b).step x = ((s.step x).1, (s.step x).2.under c b)

/-- A step that installs settings. -/
structure Installs (s : State) (d : Settings.Draft) : Prop where
  settings : (s.step (.process (.install d))).2.world.settings = some d.build
  outcome : (s.step (.process (.install d))).1.outcome = .done (.text "ok")
  warnings : (s.step (.process (.install d))).1.warnings = []

/-- A step that brings settings into force without installing them. It warns of the reason if there
is one, and but for that it answers what it answers if the settings are in force already. -/
structure Resolves (c : Settings) (reason : Option SettingsError) (s : State) (x : Step) :
    Prop where
  settings : (s.step x).2.world.settings = some c
  installs : ∀ d, x ≠ .process (.install d)
  warnings : (s.step x).1.warnings = reason.toList.map warningLine
  foreseen : ((s.under c s.world.isShutdown).step x).1 = (s.step x).1.unwarned

/-- A step under settings in force. It leaves them as they are, warns of nothing and installs no
others. -/
structure Keeps (c : Settings) (s : State) (x : Step) : Prop where
  settings : (s.step x).2.world.settings = some c
  warnings : (s.step x).1.warnings = []
  rejects : ∀ d, x = .process (.install d) →
    (s.step x).1.outcome = .done (.error .alreadyInstalled)

/-- A step that is refused from the start does nothing, and one that is carried out heeds the
settings in force. -/
theorem heeds_step (s : State) (x : Step) :
    ((s.step x).1.lines = [] ∧ (s.step x).2 = s) ∨ s.begun.Heeds (s.step x).2.world ∧
      (s.step x).1.lines = (s.step x).2.world.log.filterMap
        (Event.line? (s.step x).2.world.store.nameOf) := by
  cases hp : x.plan s.slots with
  | error misuse =>
    rw [step, hp]
    exact Or.inl ⟨rfl, rfl⟩
  | ok p =>
    cases hfree : nameIsFree s.slots p with
    | false =>
      rw [step, hp]
      simp only [hfree, Bool.false_eq_true, if_false]
      exact Or.inl ⟨trivial, trivial⟩
    | true =>
      rw [step_of_plan hp hfree]
      refine Or.inr ⟨?_, rfl⟩
      rcases s.carryOut_world p with hworld | hworld <;> rw [hworld]
      · exact Step.heeds hp .normal
      · exact refl_of World.Heeds s.begun

/-- No check fails before the settings are in force. -/
theorem errors_step (h : (s.step x).2.world.settings = none) :
    (s.step x).1.lines.filter isErrorLine = [] := by
  rcases s.heeds_step x with ⟨hlines, -⟩ | ⟨hheeds, hlines⟩
  · rw [hlines]
    rfl
  · have hnone : (s.step x).2.world.failures = [] := hheeds.failures h
    rw [hlines, filter_lines _ isErrorLine_line?]
    exact congrArg (List.filterMap _) hnone

/-- Nothing is warned of once they are. -/
theorem warnings_step (h : s.world.settings.isSome = true) : (s.step x).1.warnings = [] := by
  unfold Answer.warnings
  rcases s.heeds_step x with ⟨hlines, -⟩ | ⟨hheeds, hlines⟩
  · rw [hlines]
    rfl
  · have hnone : (s.step x).2.world.warnings = [] := hheeds.warnings h
    rw [hlines, filter_lines _ isWarningLine_line?]
    exact congrArg (List.filterMap _) hnone

theorem keeps (h : s.world.settings = some c) (x : Step) : Keeps c s x := by
  refine ⟨(s.later_step x).settings c h, warnings_step (by rw [h]; rfl), ?_⟩
  rintro d rfl
  have happly : (ProcessStep.install d).act .normal s.begun =
      (.done (.error .alreadyInstalled), s.begun) := by
    have hbegun : s.begun.settings = some c := h
    rw [ProcessStep.act, bind_apply, install_apply_of_some hbegun]
    rfl
  exact (step_of_answering (x := .process (.install d)) rfl happly nofun).1

theorem installs (h : s.world.settings = none) (d : Settings.Draft) : s.Installs d := by
  let w : World := { s.begun with settings := some d.build, log := [.installed d.build] }
  have happly : (ProcessStep.install d).act .normal s.begun = (.done (.text "ok"), w) := by
    have hbegun : s.begun.settings = none := h
    rw [ProcessStep.act, bind_apply, install_apply_of_none hbegun]
    rfl
  obtain ⟨houtcome, hworld⟩ := step_of_answering (x := .process (.install d)) rfl happly nofun
  refine ⟨by rw [hworld], houtcome, ?_⟩
  have hplan : Step.plan s.slots (.process (.install d)) =
      .ok (.answering (ProcessStep.install d).act) := rfl
  have hdone : (Plan.answering (ProcessStep.install d).act).act .normal s.begun =
      (.done (.text "ok", .null), w) := by
    show ((ProcessStep.install d).act >>= fun v => pure (v, Slot.null)) .normal s.begun = _
    rw [bind_apply, happly]
    rfl
  rw [step_of_done hplan rfl hdone]
  exact filter_lines _ isWarningLine_line? _

theorem step_under {b : Bool} (hp : x.plan s.slots = .ok p) (hfree : nameIsFree s.slots p = true)
    (h : p.act .normal (s.begun.under c b) =
      ((p.act .normal s.begun).1, (p.act .normal s.begun).2.under c b)) :
    (s.under c b).step x = ((s.step x).1, (s.step x).2.under c b) := by
  rw [step_of_plan hp hfree, step_of_plan (s := s.under c b) hp hfree]
  change p.act .normal { (s.under c b).world with log := [] } = _ at h
  unfold carryOut
  rw [h]
  unfold begun
  rcases p.act .normal { s.world with log := [] } with ⟨⟨_, _⟩ | _ | _ | _, w'⟩ <;> rfl

/-- The same state with its settings in force. -/
def decided (s : State) : State := ⟨s.world.decided, s.slots⟩

/-- What a step has in common with the one that is taken with the settings in force. It warns of the
environment if it brings them into force. -/
structure Foretold (e : Environment) (r r' : Answer × State) : Prop where
  answer : r'.1 = r.1.unwarned
  world : r.2.world.Foreseen r'.2.world
  slots : r'.2.slots = r.2.slots
  warnings : r.1.warnings = if r.2.world.settings = none then [] else
    (resolve e).2.toList.map warningLine

theorem answer_foreseen {before before' : World} (hstore : before'.store = before.store)
    (h : w.Foreseen w') (hnone : w'.warnings = []) (o : Outcome Value) :
    answerTo before' o w' = (answerTo before o w).unwarned := by
  have hlines : (w.log.filterMap (Event.line? w.store.nameOf)).filter
      (fun line => !isWarningLine line) = w'.log.filterMap (Event.line? w.store.nameOf) := by
    rw [filter_lines (Q := fun e => !e.isWarning) _
      (fun hline => by rw [isWarningLine_line? hline]), h.filter_log hnone]
  unfold Answer.unwarned answerTo
  rw [hlines, hstore, h.store]

theorem warnings_foreseen (before : World) (h : w.Foreseen w') (hnone : w'.warnings = [])
    (o : Outcome Value) : (answerTo before o w).warnings =
      if w.settings = none then [] else (resolve w.environment).2.toList.map warningLine := by
  have hwarnings : w.log.filter Event.isWarning = _ := h.warnings hnone
  show (w.log.filterMap (Event.line? w.store.nameOf)).filter isWarningLine = _
  rw [filter_lines _ isWarningLine_line?, hwarnings]
  split
  · rfl
  · rw [Environment.warned, List.filterMap_map]
    exact congrFun List.filterMap_eq_map _

/-- As long as the settings are open, a step does what it does if they are in force already. -/
theorem foretold_step (h : s.world.settings = none) (hx : ∀ d, x ≠ .process (.install d)) :
    Foretold s.world.environment (s.step x) (s.decided.step x) := by
  have hrefused (misuse : Misuse) : Foretold s.world.environment (⟨.refused misuse, [], []⟩, s)
      (⟨.refused misuse, [], []⟩, s.decided) := ⟨rfl, .still h, rfl, (if_pos h).symm⟩
  cases hp : x.plan s.slots with
  | error misuse =>
    have hp' : x.plan s.decided.slots = .error misuse := hp
    rw [step, step, hp, hp']
    exact hrefused misuse
  | ok p =>
    have hp' : x.plan s.decided.slots = .ok p := hp
    cases hfree : nameIsFree s.slots p with
    | false =>
      have hfree' : nameIsFree s.decided.slots p = false := hfree
      rw [step, step, hp, hp']
      simp only [hfree, hfree', Bool.false_eq_true, if_false]
      exact hrefused .taken
    | true =>
      have hbegun : s.begun.Foreseen s.decided.begun := .still h
      have hlater := s.later_step x
      have hnone : (s.decided.carryOut p).2.1.warnings = [] := by
        rcases s.decided.carryOut_world p with hworld | hworld <;> rw [hworld]
        · exact (Step.heeds hp' .normal).warnings rfl
        · rfl
      obtain ⟨⟨houtcome, hworld⟩, hslots⟩ :=
        carryOut_alongside hbegun rfl (Step.foreseen hp hx hbegun)
      rw [step_of_plan hp hfree] at hlater ⊢
      rw [step_of_plan (s := s.decided) hp' hfree, ← houtcome, ← hlater.environment]
      exact ⟨answer_foreseen rfl hworld hnone _, hworld, hslots,
        warnings_foreseen s.world hworld hnone _⟩

theorem leavesOpen (h : s.world.settings = none) (hx : ∀ d, x ≠ .process (.install d))
    (hopen : (s.step x).2.world.settings = none) : s.LeavesOpen x where
  settings := hopen
  installs := hx
  errors := errors_step hopen
  warnings := by
    rw [(foretold_step h hx).warnings, if_pos hopen]
  consults ha := by
    obtain ⟨p, hp, -, hworld, -⟩ := world_of_accepts ha
    rw [← Bool.not_eq_true]
    intro hconsults
    rw [hworld, Step.settings_of_consults hp hconsults] at hopen
    cases hopen
  unaffected ha c b hb := by
    obtain ⟨p, hp, hfree, hworld, -⟩ := world_of_accepts ha
    rw [hworld] at hopen
    exact step_under hp hfree (Step.unaffected (w := s.begun) hp hx h hopen hb)

theorem resolves (h : s.world.settings = none) (hx : ∀ d, x ≠ .process (.install d))
    (hsome : (s.step x).2.world.settings ≠ none) :
    Resolves (resolve s.world.environment).1 (resolve s.world.environment).2 s x := by
  have hforetold := foretold_step h hx
  have hforce : s.world.inForce = (resolve s.world.environment).1 := by
    rw [World.inForce, h, Option.getD_none]
  refine ⟨?_, hx, ?_, ?_⟩
  · have hdecided : (s.decided.step x).2.world.settings = some s.world.inForce :=
      (s.decided.later_step x).settings _ rfl
    rw [hforetold.world.settings hsome, hdecided, hforce]
  · rw [hforetold.warnings, if_neg hsome]
  · rw [← hforce]
    exact hforetold.answer

theorem decided_of_settings (h : s.world.settings = some c) : s.decided = s := by
  obtain ⟨⟨e, settings, isShutdown, st, log⟩, slots⟩ := s
  change settings = some c at h
  subst h
  rfl

/-! ## Sessions -/

/-- The courses of a session whose settings are open at its start, given what the environment brings
into force and the reason if it is not what it asks for. -/
inductive Settling (c : Settings) (reason : Option SettingsError) (s : State) : List Step → Prop
  /-- No step installs settings or looks at them. -/
  | open {xs : List Step} : s.All LeavesOpen xs → Settling c reason s xs
  /-- Settings are installed before any step looks at them. -/
  | installed (before rest : List Step) (d : Settings.Draft) : s.All LeavesOpen before →
    (s.after before).Installs d →
    ((s.after before).step (.process (.install d))).2.All (Keeps d.build) rest →
      Settling c reason s (before ++ .process (.install d) :: rest)
  /-- A step looks at the settings before any are installed. -/
  | resolved (before rest : List Step) (x : Step) : s.All LeavesOpen before →
    Resolves c reason (s.after before) x → ((s.after before).step x).2.All (Keeps c) rest →
      Settling c reason s (before ++ x :: rest)

/-- Settings in force stay in force. -/
theorem all_keeps (h : s.world.settings = some c) (xs : List Step) : s.All (Keeps c) xs := by
  induction xs generalizing s with
  | nil => trivial
  | cons x xs ih =>
    have hkeeps := keeps h x
    exact ⟨hkeeps, ih hkeeps.settings⟩

/-- A step that leaves the settings open comes before. -/
theorem LeavesOpen.settling {reason : Option SettingsError} {xs : List Step} (hx : s.LeavesOpen x)
    (h : (s.step x).2.Settling c reason xs) : s.Settling c reason (x :: xs) := by
  cases h with
  | «open» hxs => exact .open ⟨hx, hxs⟩
  | installed before rest d hbefore hd hrest =>
    exact .installed (x :: before) rest d ⟨hx, hbefore⟩ hd hrest
  | resolved before rest y hbefore hy hrest =>
    exact .resolved (x :: before) rest y ⟨hx, hbefore⟩ hy hrest

theorem settling (h : s.world.settings = none) (xs : List Step) :
    s.Settling (resolve s.world.environment).1 (resolve s.world.environment).2 xs := by
  induction xs generalizing s with
  | nil => exact .open trivial
  | cons x xs ih =>
    by_cases hinstall : ∃ d, x = .process (.install d)
    · obtain ⟨d, rfl⟩ := hinstall
      have hinstalls := installs h d
      exact .installed [] xs d trivial hinstalls (all_keeps hinstalls.settings xs)
    · have hx (d : Settings.Draft) : x ≠ .process (.install d) := fun heq => hinstall ⟨d, heq⟩
      by_cases hopen : (s.step x).2.world.settings = none
      · have hrest := ih hopen
        rw [(s.later_step x).environment] at hrest
        exact (leavesOpen h hx hopen).settling hrest
      · have hresolves := resolves h hx hopen
        exact .resolved [] xs x trivial hresolves (all_keeps hresolves.settings xs)

/-- Unless settings are installed while they are open, a session goes as if those in force in the
end had been in force from the start. -/
theorem run_decided {xs : List Step}
    (hxs : s.All (fun t x => t.world.settings = none → ∀ d, x ≠ .process (.install d)) xs) :
    runFrom s.decided xs = (runFrom s xs).map Answer.unwarned := by
  induction xs generalizing s with
  | nil => rfl
  | cons x xs ih =>
    obtain ⟨hx, hxs⟩ := hxs
    have hstep : (s.decided.step x).1 = (s.step x).1.unwarned ∧
        (s.decided.step x).2.fresh = (s.step x).2.decided.fresh := by
      cases hs : s.world.settings with
      | some c =>
        have hkeeps := keeps hs x
        rw [decided_of_settings hs, decided_of_settings hkeeps.settings,
          Answer.unwarned_of_warnings hkeeps.warnings]
        exact ⟨rfl, rfl⟩
      | none =>
        have hforetold := foretold_step hs (hx hs)
        refine ⟨hforetold.answer, ?_⟩
        show State.mk _ _ = State.mk _ _
        rw [hforetold.slots]
        exact congrArg (State.mk · _) (hforetold.world.withLog [])
    have hgoes : (s.step x).1.unwarned.goesOn = (s.step x).1.goesOn := rfl
    simp only [runFrom, List.map_cons, hstep.1, hgoes, runFrom_congr hstep.2 xs, ih hxs]
    cases (s.step x).1.goesOn <;> rfl

/-- What becomes of the settings in a session. Settings in force are kept. Where they are open the
session takes one of the courses, and if it installs none before they are in force, it goes as if
those that the environment brings into force had been in force from the start, but for the warning.
Settings are installed if and only if none are in force. -/
structure SettlesOnce (s : State) (xs : List Step) : Prop where
  kept : ∀ c, s.world.settings = some c → s.All (Keeps c) xs
  settling : s.world.settings = none → ∃ c reason, s.world.environment.Yields c reason ∧
    s.Settling c reason xs ∧
      (s.All (fun t x => t.world.settings = none → ∀ d, x ≠ .process (.install d)) xs →
        runFrom (s.under c s.world.isShutdown) xs = (runFrom s xs).map Answer.unwarned)
  installed : s.All (fun t x => ∀ d, x = .process (.install d) →
    ((t.step x).1.outcome = .done (.text "ok") ↔ t.world.settings = none)) xs

theorem installed_iff (s : State) (d : Settings.Draft) :
    (s.step (.process (.install d))).1.outcome = .done (.text "ok") ↔ s.world.settings = none := by
  cases h : s.world.settings with
  | none => exact iff_of_true (installs h d).outcome rfl
  | some c =>
    refine iff_of_false ?_ nofun
    rw [(keeps h _).rejects d rfl]
    nofun

end State

/-- The settings of a process are resolved once, whichever state it is in and whatever steps are
taken from there. -/
theorem settings_resolved_once (s : State) (xs : List Step) : s.SettlesOnce xs where
  kept c h := State.all_keeps h xs
  settling h := by
    refine ⟨_, _, Environment.yields_resolve _, State.settling h xs, fun hxs => ?_⟩
    have hdecided : s.under (resolve s.world.environment).1 s.world.isShutdown = s.decided := by
      rw [State.decided, World.decided, World.inForce, h, Option.getD_none]
      rfl
    rw [hdecided]
    exact State.run_decided hxs
  installed := by
    induction xs generalizing s with
    | nil => trivial
    | cons x xs ih =>
      refine ⟨?_, ih _⟩
      rintro d rfl
      exact s.installed_iff d

/-- Although the first variable holds a switch, the second one is warned of, once. -/
example :
    let e : Environment := ⟨some "off".toUTF8, some " maybe".toUTF8⟩
    let xs : List Step := [.process .currentSettings, .process .requireRunning]
    ((State.initial e none).after xs).world.settings = some ⟨true, true⟩ ∧
      (run e none xs).map Answer.warnings =
        [[warningLine (.invalidValue .shutdownChecks " maybe")], []] := by
  decide +kernel

end ObjectBoundary.Session
