import ObjectBoundary.Proofs.Acts.Accord

/-!
# How the settings come into force

The first look at the settings brings those into force that the environment asks for. What is done
before that is the same under all settings. What is done from then on is done as if the settings had
been in force all the time, but for the warning that an environment without settings calls for.

* `Environment.Yields`: what an environment brings into force, and the reason if it is not what it
  asks for.
* `Composed.heeds`: nothing is warned of under settings in force, and a failed check brings them
  into force.
* `Supervised.unaffected`: an act that leaves the settings open does the same under all of them.
* `Supervised.foreseen`: any other act does what it does if they are in force already.
-/

namespace ObjectBoundary

variable {α β : Type}

/-! ## What an environment brings into force -/

namespace Environment

/-- The switch that a variable holds, if it holds one. -/
def switch? (e : Environment) (v : Variable) : Option Bool := (e.lookup v).bind Switch.ofText?

/-- A variable has a value that is no switch. -/
def Offends (e : Environment) (v : Variable) (text : String) : Prop :=
  e.lookup v = some text ∧ Switch.ofText? text = none

/-- What an environment brings into force. Unless a variable offends, each switch is the one that
its variable holds, fatal checks are on by default, and shutdown checks follow them. Otherwise all
switches are on, and the first variable that offends is the reason, with its value as it is. -/
structure Yields (e : Environment) (c : Settings) (reason : Option SettingsError) : Prop where
  valid : (∀ v text, ¬ e.Offends v text) →
    c.fatalChecks = (e.switch? .fatalChecks).getD true ∧
      c.shutdownChecks = (e.switch? .shutdownChecks).getD c.fatalChecks ∧ reason = none
  invalid : ∀ v text, e.Offends v text →
    (v = .shutdownChecks → ∀ text', ¬ e.Offends .fatalChecks text') →
      c = ⟨true, true⟩ ∧ reason = some (.invalidValue v text)

/-- A variable either offends or is read. -/
theorem switch_cases (e : Environment) (v : Variable) :
    (∃ text, e.Offends v text ∧ e.switch v = .error (.invalidValue v text)) ∨
      (∀ text, ¬ e.Offends v text) ∧ e.switch v = .ok (e.switch? v) := by
  unfold Offends switch switch?
  cases e.lookup v with
  | none => exact Or.inr ⟨nofun, rfl⟩
  | some value =>
    cases hread : Switch.ofText? value with
    | none => exact Or.inl ⟨value, ⟨rfl, hread⟩, by simp only [Switch.read, hread]; rfl⟩
    | some b =>
      refine Or.inr ⟨fun text h => ?_, by simp only [Switch.read, hread, Option.bind_some]; rfl⟩
      obtain ⟨heq, hnone⟩ := h
      cases heq
      rw [hread] at hnone
      cases hnone

theorem Offends.unique {e : Environment} {v : Variable} {text text' : String}
    (h : e.Offends v text) (h' : e.Offends v text') : text = text' :=
  Option.some.inj (h.1.symm.trans h'.1)

theorem yields_resolve (e : Environment) : e.Yields (Act.resolve e).1 (Act.resolve e).2 := by
  unfold Act.resolve Settings.ofEnvironment
  rcases e.switch_cases .fatalChecks with ⟨text, hfatal, hread⟩ | ⟨hfatal, hread⟩
  · rw [hread]
    refine ⟨fun hnone => absurd hfatal (hnone _ _), fun v value hv hfirst => ?_⟩
    cases v with
    | fatalChecks => exact ⟨rfl, by rw [hv.unique hfatal]; rfl⟩
    | shutdownChecks => exact absurd hfatal (hfirst rfl text)
  rw [hread]
  rcases e.switch_cases .shutdownChecks with ⟨text, hshutdown, hread'⟩ | ⟨hshutdown, hread'⟩
  · rw [hread']
    refine ⟨fun hnone => absurd hshutdown (hnone _ _), fun v value hv _ => ?_⟩
    cases v with
    | fatalChecks => exact absurd hv (hfatal value)
    | shutdownChecks => exact ⟨rfl, by rw [hv.unique hshutdown]; rfl⟩
  · rw [hread']
    refine ⟨fun _ => ⟨rfl, rfl, rfl⟩, fun v value hv _ => ?_⟩
    cases v with
    | fatalChecks => exact absurd hv (hfatal value)
    | shutdownChecks => exact absurd hv (hshutdown value)

/-- What is logged when an environment brings settings into force. -/
def warned (e : Environment) : List Event := (Act.resolve e).2.toList.map .fellBack

end Environment

/-! ## What settings have to do with the log -/

namespace World

/-- The warnings that an environment held no settings. -/
def warnings (w : World) : List Event := w.log.filter Event.isWarning

/-- Settings in force stay, and nothing is warned of any more. Before they are in force no check
fails. -/
structure Heeds (w w' : World) : Prop where
  later : w.Later w'
  warnings : w.settings.isSome = true → w'.warnings = w.warnings
  failures : w'.settings = none → w'.failures = w.failures

theorem Later.isSome {w w' : World} (h : w.Later w') (hs : w.settings.isSome = true) :
    w'.settings.isSome = true := by
  obtain ⟨c, hc⟩ := Option.isSome_iff_exists.mp hs
  rw [h.settings c hc]
  rfl

instance : IsPreorder World Heeds where
  refl w := ⟨refl_of Later w, fun _ => rfl, fun _ => rfl⟩
  trans w w' w'' h h' := by
    refine ⟨trans_of Later h.later h'.later, fun hs => ?_, fun hnone => ?_⟩
    · exact (h'.warnings (h.later.isSome hs)).trans (h.warnings hs)
    · have hnone' : w'.settings = none := by
        rw [← Option.not_isSome_iff_eq_none] at hnone ⊢
        exact fun hs => hnone (h'.later.isSome hs)
      exact (h'.failures hnone).trans (h.failures hnone')

theorem heeds_of_log {w w' : World} (h : w.Later w') (hlog : w'.log = w.log) : w.Heeds w' :=
  ⟨h, fun _ => by rw [warnings, hlog, warnings], fun _ => by rw [failures, hlog, failures]⟩

theorem heeds_store (w : World) (st : Store) : w.Heeds { w with store := st } :=
  heeds_of_log ⟨rfl, fun _ h => h, fun h => h⟩ rfl

end World

namespace Act

variable {w w' : World} {ph : Phase} {k : Known}

/-- Whoever looks at the settings brings them into force. -/
theorem settings_of_settings_bind {f : Settings → Act β}
    (hf : ∀ c w, Respects World.Later (f c) w) (ph : Phase) (w : World) :
    ((settings >>= f) ph w).2.settings = some w.inForce := by
  obtain ⟨w', happly, hconsults⟩ := settings_apply ph w
  rw [bind_apply, happly]
  exact (hf _ w' ph).settings _ hconsults.settings

theorem later_require (condition : Bool) (failure : Failure) :
    Respects World.Later (require condition failure) w :=
  respects_mono (respects_require condition failure) fun _ hq => hq.later

theorem settings_of_check (failure : Failure) (ph : Phase) (w : World) :
    (check failure ph w).2.settings = some w.inForce := by
  refine settings_of_settings_bind (fun c w => ?_) ph { w with log := w.log ++ [.failed failure] }
  split
  · exact respects_unwind _
  · exact respects_pure _

theorem settings_of_requireRunning (ph : Phase) (w : World) :
    (requireRunning ph w).2.settings = some w.inForce := by
  refine settings_of_settings_bind (fun c w => ?_) ph w
  split
  · exact respects_get_bind (later_require _ _)
  · exact respects_pure _

theorem settings_of_signalShutdown (ph : Phase) (w : World) :
    (signalShutdown ph w).2.settings = some w.inForce := by
  refine settings_of_settings_bind (fun c w => ?_) ph w
  split
  · refine respects_get_bind (respects_bind (respects_modify ?_) fun _ _ _ => ?_)
    · exact ⟨rfl, fun _ h => h, fun _ => rfl⟩
    · exact respects_bind (later_require _ _) fun _ w₁ _ =>
        respects_modify (onward_log w₁ .shutdownArmed).later
  · exact respects_pure _

theorem settings_of_shutDown (ph : Phase) (w : World) :
    (shutDown ph w).2.settings = some w.inForce := by
  show (contained (emit .shutdownBegan >>= fun _ => signalShutdown) ph w).2.settings = _
  rw [contained_eq]
  exact settings_of_signalShutdown ph { w with log := w.log ++ [.shutdownBegan] }

theorem heeds_emit {e : Event} (h : e.isComplaint = false) : Respects World.Heeds (emit e) w := by
  obtain ⟨hf, hw⟩ := Event.isComplaint_eq_false.mp h
  refine respects_modify ⟨(onward_log w e).later, fun _ => ?_, fun _ => w.failures_emit hf⟩
  simp [World.warnings, hw]

theorem heeds_settings : Respects World.Heeds settings w := by
  intro phase
  obtain ⟨w', happly, hconsults⟩ := settings_apply phase w
  rw [happly]
  refine ⟨hconsults.quiet.later, fun hs => ?_, fun _ => hconsults.failures⟩
  obtain ⟨c, hc⟩ := Option.isSome_iff_exists.mp hs
  rw [settings_apply_of_some hc] at happly
  cases happly
  rfl

theorem heeds_check (failure : Failure) : Respects World.Heeds (check failure) w := by
  intro phase
  refine ⟨(onward_check failure phase).later, fun hs => ?_, fun hnone => ?_⟩
  · have hrest : Respects World.Heeds (settings >>= fun c =>
        if c.fatalChecks then unwind failure else pure ())
        { w with log := w.log ++ [.failed failure] } := by
      refine respects_bind heeds_settings fun c _ _ => ?_
      split
      · exact respects_unwind _
      · exact respects_pure _
    refine ((hrest phase).warnings hs).trans ?_
    simp [World.warnings, Event.isWarning]
  · rw [settings_of_check] at hnone
    cases hnone

theorem heeds_install (c : Settings) : Respects World.Heeds (install c) w := by
  intro phase
  cases hs : w.settings with
  | some c' =>
    rw [install_apply_of_some hs]
    exact refl_of World.Heeds w
  | none =>
    refine ⟨(onward_install c phase).later, fun h => ?_, fun hnone => ?_⟩
    · rw [hs] at h
      cases h
    · rw [install_apply_of_none hs] at hnone
      cases hnone

/-- Composed acts heed settings in force. -/
theorem Composed.heeds {x : Act α} (h : Composed x) (w : World) : Respects World.Heeds x w := by
  induction h generalizing w with
  | pure a => exact respects_pure a
  | bind _ _ ihx ihf => exact respects_bind (ihx w) fun a w' _ => ihf a w'
  | refuse m => exact respects_refuse m
  | raise x =>
    refine respects_entity_bind fun n _ _ => ?_
    cases n.entity.count? with
    | none => exact respects_refuse _
    | some c =>
      rw [ofOption_some_bind]
      refine respects_bind (respects_modify (w.heeds_store _)) fun _ _ _ => ?_
      refine respects_bind (heeds_emit rfl) fun _ _ _ => ?_
      split
      · exact respects_abort
      · exact respects_pure _
  | look view => exact fun _ => refl_of World.Heeds w
  | consult => exact respects_map heeds_settings
  | install c => exact heeds_install c
  | shut => exact respects_modify (World.heeds_of_log ⟨rfl, fun _ h => h, fun _ => rfl⟩ rfl)
  | emit he => exact heeds_emit he
  | check failure => exact heeds_check failure
  | create name _ => exact fun _ => w.heeds_store _
  | change x f =>
    refine respects_entity_bind fun n _ _ => ?_
    cases n.entity.struct? with
    | none => exact respects_refuse _
    | some t => exact respects_modify (w.heeds_store _)
  | vacate x v _ ih => exact respects_bind (respects_modify (w.heeds_store _)) fun _ w' _ => ih w'
  | contained _ ih => exact respects_contained (ih w)
  | onUnwind _ _ _ ihx ihc => exact respects_onUnwind (ihx w) fun w' _ => ihc w'
  | _ => exact respects_modify (w.heeds_store _)

end Act

/-! ## Acts that do not look at the settings -/

/-- The same world with settings in force, and with shutdown begun or not. -/
def World.under (w : World) (c : Settings) (isShutdown : Bool) : World :=
  { w with settings := some c, isShutdown := isShutdown }

namespace Act

variable {w w' : World} {ph : Phase} {k : Known}

theorem accordance_under (c : Settings) (b : Bool) :
    Accordance (fun w w' => w.settings = none ∧ w' = w.under c b)
      fun w _ => w.settings.isSome = true where
  environment h := by
    rw [h.2]
    rfl
  store h := by
    rw [h.2]
    rfl
  replace h st := ⟨h.1, by rw [h.2]; rfl⟩
  emit h e _ := ⟨h.1, by rw [h.2]; rfl⟩
  apart h ho _ := ho.later.isSome h
  check _ failure ph := .apart (by rw [settings_of_check]; rfl)
  running _ ph := .apart (by rw [settings_of_requireRunning]; rfl)

/-- An act that leaves the settings open does the same under all settings, whether shutdown has
begun or not. -/
theorem Supervised.unaffected {x : Act α} (h : Supervised ph k x) (hw : w.settings = none)
    (hopen : (x ph w).2.settings = none) (c : Settings) (b : Bool) :
    x ph (w.under c b) = ((x ph w).1, (x ph w).2.under c b) := by
  have halong := (h.accords (accordance_under c b) ⟨hw, rfl⟩).alongside (by rw [hopen]; nofun)
  exact Prod.ext halong.outcome.symm halong.world.2

/-! ## Acts that may look at the settings -/

end Act

namespace World

/-- The same world with its settings in force. -/
def decided (w : World) : World := w.under w.inForce w.isShutdown

/-- Worlds that differ at most in what the first one logged when its settings came into force. -/
def Told (w w' : World) : Prop :=
  w.settings.isSome = true ∧ ∃ l m, w'.log = l ++ m ∧
    w = { w' with log := l ++ w'.environment.warned ++ m }

/-- The settings of the first world are those of the second one, as soon as they are in force. -/
inductive Foreseen : World → World → Prop
  | still {w : World} : w.settings = none → Foreseen w w.decided
  | told {w w' : World} : w.Told w' → Foreseen w w'

/-- The warnings of an environment are nothing else. -/
theorem filter_warned (e : Environment) : e.warned.filter Event.isWarning = e.warned := by
  refine List.filter_eq_self.mpr fun event hevent => ?_
  obtain ⟨error, -, rfl⟩ := List.mem_map.mp hevent
  rfl

namespace Told

variable {w w' : World}

theorem settings (h : w.Told w') : w'.settings = w.settings := by
  obtain ⟨-, l, m, -, rfl⟩ := h
  rfl

theorem isShutdown (h : w.Told w') : w'.isShutdown = w.isShutdown := by
  obtain ⟨-, l, m, -, rfl⟩ := h
  rfl

theorem replace (h : w.Told w') (st : Store) :
    Told { w with store := st } { w' with store := st } := by
  obtain ⟨hs, l, m, hlog, rfl⟩ := h
  exact ⟨hs, l, m, hlog, rfl⟩

theorem environment (h : w.Told w') : w'.environment = w.environment := by
  obtain ⟨-, l, m, -, rfl⟩ := h
  rfl

/-- If nothing is warned of in the second world, there is one warning in the first. -/
theorem warnings (h : w.Told w') (hnone : w'.warnings = []) :
    w.warnings = w.environment.warned := by
  obtain ⟨-, l, m, hlog, rfl⟩ := h
  rw [World.warnings, hlog, List.filter_append, List.append_eq_nil_iff] at hnone
  rw [World.warnings, List.filter_append, List.filter_append, filter_warned, hnone.1, hnone.2,
    List.nil_append, List.append_nil]

theorem shut (h : w.Told w') :
    Told { w with isShutdown := true } { w' with isShutdown := true } := by
  obtain ⟨hs, l, m, hlog, rfl⟩ := h
  exact ⟨hs, l, m, hlog, rfl⟩

theorem emit (h : w.Told w') (e : Event) :
    Told { w with log := w.log ++ [e] } { w' with log := w'.log ++ [e] } := by
  obtain ⟨hs, l, m, hlog, rfl⟩ := h
  refine ⟨hs, l, m ++ [e], ?_, ?_⟩
  · rw [← List.append_assoc, ← hlog]
  · simp only [List.append_assoc]

end Told

namespace Foreseen

variable {w w' : World}

theorem isShutdown (h : w.Foreseen w') : w'.isShutdown = w.isShutdown := by
  cases h with
  | still hw => rfl
  | told h => exact h.isShutdown

theorem store (h : w.Foreseen w') : w'.store = w.store := by
  cases h with
  | still hw => rfl
  | told h =>
    obtain ⟨-, l, m, -, rfl⟩ := h
    rfl

theorem settings (h : w.Foreseen w') (hsome : w.settings ≠ none) : w.settings = w'.settings := by
  cases h with
  | still hnone => exact absurd hnone hsome
  | told h => exact h.settings.symm

/-- But for the log, the second world is the first one with its settings in force. -/
theorem withLog (h : w.Foreseen w') (l : List Event) :
    { w' with log := l } = { w.decided with log := l } := by
  cases h with
  | still hw => rfl
  | told h =>
    obtain ⟨hs, l', m, -, rfl⟩ := h
    obtain ⟨c, hc⟩ := Option.isSome_iff_exists.mp hs
    change w'.settings = some c at hc
    simp [decided, under, inForce, hc]

theorem warnings (h : w.Foreseen w') (hnone : w'.warnings = []) :
    w.warnings = if w.settings = none then [] else w.environment.warned := by
  cases h with
  | still hw => rw [if_pos hw]; exact hnone
  | told h =>
    have hsome : w.settings ≠ none := Option.isSome_iff_ne_none.mp h.1
    rw [if_neg hsome, h.warnings hnone]

/-- Other events are the same in both. -/
theorem filter_log (h : w.Foreseen w') (hnone : w'.warnings = []) :
    w.log.filter (fun e => !e.isWarning) = w'.log := by
  have hothers {l : List Event} (hl : l.filter Event.isWarning = []) :
      l.filter (fun e => !e.isWarning) = l := by
    refine List.filter_eq_self.mpr fun e he => ?_
    rw [Bool.not_eq_true', ← Bool.not_eq_true]
    exact List.filter_eq_nil_iff.mp hl e he
  cases h with
  | still hw => exact hothers hnone
  | told h =>
    obtain ⟨-, l, m, hlog, rfl⟩ := h
    rw [World.warnings, hlog, List.filter_append, List.append_eq_nil_iff] at hnone
    have hwarned : w'.environment.warned.filter (fun e => !e.isWarning) = [] := by
      rw [← filter_warned, List.filter_filter]
      simp
    rw [List.filter_append, List.filter_append, hwarned, hothers hnone.1, hothers hnone.2, hlog,
      List.append_nil]

theorem emit (h : w.Foreseen w') (e : Event) :
    Foreseen { w with log := w.log ++ [e] } { w' with log := w'.log ++ [e] } := by
  cases h with
  | still hw => exact .still (w := { w with log := w.log ++ [e] }) hw
  | told h => exact .told (h.emit e)

end Foreseen

end World

namespace Act

variable {w w' : World} {ph : Phase} {k : Known}

theorem settings_apply_of_none (h : w.settings = none) (ph : Phase) : settings ph w =
    (.done w.inForce,
      { w with settings := some w.inForce, log := w.log ++ w.environment.warned }) := by
  simp only [settings, bind_apply, get, h, World.inForce, Option.getD_none, Environment.warned]
  rcases resolve w.environment with ⟨c, _ | e⟩
  · simp only [Option.toList_none, List.map_nil, List.append_nil]
    rfl
  · rfl

/-- After a look at the settings only the log may differ. -/
theorem foreseen_settings_bind {f : Settings → Act β} (h : w.Foreseen w')
    (hf : ∀ c v v', v.Told v' → Alongside World.Foreseen (f c ph v) (f c ph v')) :
    Alongside World.Foreseen ((settings >>= f) ph w) ((settings >>= f) ph w') := by
  cases h with
  | still hw =>
    rw [bind_apply, bind_apply, settings_apply_of_none hw,
      settings_apply_of_some (w := w.decided) rfl]
    refine hf _ _ _ ⟨rfl, w.log, [], (List.append_nil _).symm, ?_⟩
    rw [List.append_nil]
    rfl
  | told h =>
    obtain ⟨c, hc⟩ := Option.isSome_iff_exists.mp h.1
    rw [bind_apply, bind_apply, settings_apply_of_some hc,
      settings_apply_of_some (h.settings.trans hc)]
    exact hf c w w' h

theorem foreseen_check (h : w.Foreseen w') (failure : Failure) :
    Alongside World.Foreseen (check failure ph w) (check failure ph w') := by
  refine foreseen_settings_bind (h.emit (.failed failure)) fun c v v' hv => ?_
  split
  · cases ph <;> exact ⟨rfl, .told hv⟩
  · exact ⟨rfl, .told hv⟩

theorem foreseen_require (h : w.Foreseen w') (condition : Bool) (failure : Failure) :
    Alongside World.Foreseen (require condition failure ph w)
      (require condition failure ph w') := by
  cases condition with
  | true => exact ⟨rfl, h⟩
  | false => exact foreseen_check h failure

theorem foreseen_requireRunning (h : w.Foreseen w') :
    Alongside World.Foreseen (requireRunning ph w) (requireRunning ph w') := by
  refine foreseen_settings_bind h fun c v v' hv => ?_
  split
  · show Alongside _ (require (!v.isShutdown) .heldAtShutdown ph v)
      (require (!v'.isShutdown) .heldAtShutdown ph v')
    rw [hv.isShutdown]
    exact foreseen_require (.told hv) _ _
  · exact ⟨rfl, .told hv⟩

theorem accordance_foreseen : Accordance World.Foreseen fun _ _ => False where
  environment h := by
    cases h with
    | still _ => rfl
    | told h => exact h.environment
  store h := h.store
  replace {w _} h st := by
    cases h with
    | still hw => exact .still (w := { w with store := st }) hw
    | told h => exact .told (h.replace st)
  emit h e _ := h.emit e
  apart h _ _ := h
  check h failure _ := .of_alongside (foreseen_check h failure)
  running h _ := .of_alongside (foreseen_requireRunning h)

/-- An act under supervision does what it does if the settings are in force already. -/
theorem Supervised.foreseen {x : Act α} (h : Supervised ph k x) (hw : w.Foreseen w') :
    Alongside World.Foreseen (x ph w) (x ph w') :=
  (h.accords accordance_foreseen hw).alongside id

theorem foreseen_signalShutdown (h : w.Foreseen w') :
    Alongside World.Foreseen (signalShutdown ph w) (signalShutdown ph w') := by
  refine foreseen_settings_bind h fun c v v' hv => ?_
  split
  · show Alongside _
      ((require (!v.isShutdown) .shutdownTwice >>= fun _ => emit .shutdownArmed) ph
        { v with isShutdown := true })
      ((require (!v'.isShutdown) .shutdownTwice >>= fun _ => emit .shutdownArmed) ph
        { v' with isShutdown := true })
    rw [hv.isShutdown]
    exact alongside_bind (foreseen_require (.told hv.shut) _ _) fun _ _ _ h => ⟨rfl, h.emit _⟩
  · exact ⟨rfl, .told hv⟩

theorem foreseen_shutDown (h : w.Foreseen w') :
    Alongside World.Foreseen (shutDown ph w) (shutDown ph w') := by
  show Alongside _ (contained (emit .shutdownBegan >>= fun _ => signalShutdown) ph w)
    (contained (emit .shutdownBegan >>= fun _ => signalShutdown) ph w')
  rw [contained_eq, contained_eq]
  exact Alongside.map (foreseen_signalShutdown (h.emit .shutdownBegan)) _

end Act

end ObjectBoundary
