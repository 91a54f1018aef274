import ObjectBoundary.Proofs.Acts.Recovery
import ObjectBoundary.Proofs.References.Exchange
import ObjectBoundary.Shared.Proxy
import ObjectBoundary.Shared.Wrapper

/-!
# What a crossing leaves

Where all of a chain exists and hands references on, a shared object or structure that crosses the
boundary leaves nothing behind but the wrapper or proxy that carries it. Taking it back leaves
that wrapper or proxy with one reference less, and nothing else of any entity has changed.

* `ProxyClass.Recovers`: which classes take back the proxies of a class.
* `ProxyClass.wrapper`: the class of wrappers for the same interface.
* `makes_wrap`, `makes_receive`: making a wrapper or proxy adds it.
* `makes_unwrap`, `makes_giveBack`: taking back what it carries lowers its count.
-/

namespace ObjectBoundary

open Act

variable {w : World} {x y : Id} {name : String}

/-- A reference was taken and then another one was given up, which leaves the sum of both. -/
theorem makes_giveUp {act : Act Unit} {st st' : Store} (h : w.store = st)
    (hact : Makes act w () (w.store.modifyAll (w.store.chain x) Node.lowered))
    (hst : st.modifyAll (st.chain x) Node.lowered = st') : Makes act w () st' := by
  rw [h, hst] at hact
  exact hact

/-! ## Wrappers -/

namespace SharedClass

theorem counts_newStruct (c : SharedClass) : c.newStruct.counts = true := by
  cases c <;> rfl

/-- A handle becomes a wrapper, and all else stays. -/
theorem makes_wrap (c : SharedClass) (name : String) (hs : w.store.Sound) (ht : w.IsTolerant)
    (hr : w.store.HasRole x .sharedObject) (h : w.store.Ready x) :
    Makes (c.wrap name x) w w.store.size
      (w.store.push ⟨name, .sharedWrapper ⟨c, x, c.newStruct, Count.zero.succ⟩, true⟩) := by
  have hf : Node.IsFresh ⟨name, .sharedWrapper ⟨c, x, c.newStruct, .zero⟩, true⟩ w.store x :=
    ⟨rfl, rfl, rfl, hr, rfl⟩
  obtain ⟨hsound, -, hfirm, hlowered⟩ := h.lowered_push hs hf
  have hmade : Makes
      (do
        requireRunning
        let a ← create name (.sharedWrapper ⟨c, x, c.newStruct, .zero⟩)
        retain a
        emit (.crossed .wrapped c.tag)
        pure a)
      w w.store.size ((w.store.modifyAll (w.store.chain x) Node.raised).push
        (Node.raised ⟨name, .sharedWrapper ⟨c, x, c.newStruct, .zero⟩, true⟩)) := by
    refine makes_yields_bind (yields_requireRunning ht) fun w₁ h₁ => ?_
    rw [← h₁.store] at hs h hf ⊢
    exact makes_introduce hs.linked h hf c.counts_newStruct fun w₂ h₂ => makes_crossed h₂.store
  exact makes_ensuring hmade fun w₂ h₂ => makes_giveUp h₂.store
    (makes_drop (h₂.store ▸ hsound) (h₂.isTolerant ht) (h₂.store ▸ hfirm)) hlowered

section Unwrap

variable {v : SharedWrapper} (hs : w.store.Sound) (ht : w.IsTolerant)
  (hn : w.store.get? x = some ⟨name, .sharedWrapper v, true⟩) (h : w.store.Ready x)
include hs ht hn h

theorem makes_retrieve (c : SharedClass) :
    Makes (c.retrieve x) w (some v.object) (w.store.modify x Node.lowered) := by
  obtain ⟨hsound, hfirm, hlowered⟩ := h.lowered_above hs hn rfl
  refine makes_entity_bind hn rfl (makes_bind
    (makes_retain hs.linked (h.below hs.linked hn rfl)) fun w₁ h₁ => ?_)
  obtain ⟨m, hm, -⟩ := hfirm.upheld x (Store.mem_chain_self hsound.earlier x)
  have hrelease := makes_release (h₁.store ▸ hsound) (h₁.isTolerant ht) (h₁.store ▸ hfirm)
    (h₁.store ▸ hm)
  exact makes_bind (makes_onUnwind (makes_giveUp h₁.store (makes_discard hrelease) hlowered))
    fun w₂ h₂ => makes_crossed h₂.store

/-- A reference to a wrapper becomes a handle, and all else stays. -/
theorem makes_unwrap {c : SharedClass} (hc : c.Recovers v.cls) :
    Makes (c.unwrap x) w (some v.object) (w.store.modify x Node.lowered) := by
  refine makes_yields_bind (yields_requireRunning ht) fun w₁ h₁ => ?_
  rw [← h₁.store] at hs hn h ⊢
  refine makes_yields_bind (yields_wrapperTag hn rfl rfl) fun w₂ h₂ => ?_
  have ht₂ : w₂.IsTolerant := h₂.isTolerant (h₁.isTolerant ht)
  rw [← h₂.store] at hs hn h ⊢
  rcases recovers_cases c v.cls with ⟨htag, -⟩ | ⟨htag, hderived, -⟩ | ⟨-, -, hnot⟩
  · rw [if_pos htag]
    exact makes_retrieve hs ht₂ hn h c
  · rw [if_neg htag, hderived]
    refine makes_yields_bind (yields_requireRunning ht₂) fun w₃ h₃ => ?_
    rw [← h₃.store] at hs hn h ⊢
    exact makes_retrieve hs (h₃.isTolerant ht₂) hn h child
  · exact absurd hc hnot

end Unwrap

end SharedClass

/-! ## Proxies -/

namespace ProxyClass

/-- A class takes back its own proxies, and the parent class also those of its child. -/
def Recovers (c d : ProxyClass) : Prop := c = d ∨ c = client ∧ d = child

/-- The class that wraps objects of the interface of a class of proxies. -/
def wrapper : ProxyClass → SharedClass
  | client => .client
  | child => .child

theorem interface_wrapper (c : ProxyClass) : c.wrapper.interface = c.sharedInterface := by
  cases c <;> rfl

theorem Recovers.wrapper {c d : ProxyClass} (h : c.Recovers d) : c.wrapper.Recovers d.wrapper := by
  rcases h with rfl | ⟨rfl, rfl⟩
  · exact Or.inl rfl
  · exact Or.inr ⟨rfl, rfl⟩

/-- The reference that comes with a structure becomes a proxy, and all else stays. -/
theorem makes_receive (c : ProxyClass) (name : String) (hs : w.store.Sound) (ht : w.IsTolerant)
    (hr : w.store.HasRole x .sharedStructure) (h : w.store.Ready x) :
    Makes (c.receive name x) w w.store.size
      (w.store.push ⟨name, .sharedProxy ⟨c, x, Count.zero.succ⟩, true⟩) := by
  have hf : Node.IsFresh ⟨name, .sharedProxy ⟨c, x, .zero⟩, true⟩ w.store x :=
    ⟨rfl, rfl, rfl, hr, trivial⟩
  obtain ⟨hsound, hrole, hfirm, hlowered⟩ := h.lowered_push hs hf
  refine makes_yields_bind (yields_requireRunning ht) fun w₁ h₁ => ?_
  rw [← h₁.store] at hs h hf hsound hrole hfirm hlowered ⊢
  refine makes_introduce hs.linked h hf rfl fun w₂ h₂ => ?_
  have ht₂ : w₂.IsTolerant := h₂.isTolerant (h₁.isTolerant ht)
  exact makes_bind (makes_giveUp h₂.store (makes_release_through (h₂.store ▸ hsound) ht₂
    (h₂.store ▸ hfirm) (h₂.store ▸ hrole)) hlowered) fun w₃ h₃ => makes_crossed h₃.store

section GiveBack

variable {p : SharedProxy} (hs : w.store.Sound) (ht : w.IsTolerant)
  (hn : w.store.get? x = some ⟨name, .sharedProxy p, true⟩) (h : w.store.Ready x)
include hs ht hn h

theorem makes_handOut :
    Makes (p.cls.handOut x) w (some p.target) (w.store.modify x Node.lowered) := by
  obtain ⟨hsound, hfirm, hlowered⟩ := h.lowered_above hs hn rfl
  have hrole : w.store.HasRole p.target .sharedStructure := (hs.linked x _ _ hn rfl).2
  refine makes_ensuring (makes_entity_bind hn rfl ?_) fun w₁ h₁ => makes_giveUp h₁.store
    (makes_drop (h₁.store ▸ hsound) (h₁.isTolerant ht) (h₁.store ▸ hfirm)) hlowered
  show Makes (if p.cls = p.cls then _ else _) w (some p.target) _
  rw [if_pos rfl]
  exact makes_bind (makes_retain_through hs.linked (h.below hs.linked hn rfl) hrole)
    fun w₁ h₁ => makes_crossed h₁.store

/-- A handle to a proxy becomes a reference to its structure, and all else stays. -/
theorem makes_giveBack {c : ProxyClass} (hc : c.Recovers p.cls) :
    Makes (c.giveBack x) w (some p.target) (w.store.modify x Node.lowered) := by
  refine makes_bind (makes_onUnwind (makes_of_yields (yields_requireRunning ht))) fun w₁ h₁ => ?_
  have ht₁ : w₁.IsTolerant := h₁.isTolerant ht
  rw [← h₁.store] at hs hn h ⊢
  refine makes_entity_bind hn rfl ?_
  show Makes (if p.cls.sharedTag = c.sharedTag then c.handOut x else _) w₁ _ _
  rcases hc with rfl | ⟨rfl, hchild⟩
  · rw [if_pos rfl]
    exact makes_handOut hs ht₁ hn h
  · have hne : child.sharedTag ≠ client.sharedTag := by decide
    have hderived : client.sharedDerived? child.sharedTag = some p.cls := by rw [hchild]; rfl
    rw [hchild, if_neg hne, hderived]
    refine makes_bind (makes_onUnwind (makes_of_yields (yields_requireRunning ht₁)))
      fun w₂ h₂ => ?_
    have ht₂ : w₂.IsTolerant := h₂.isTolerant ht₁
    rw [← h₂.store] at hs hn h ⊢
    exact makes_handOut hs ht₂ hn h

end GiveBack

end ProxyClass

end ObjectBoundary
