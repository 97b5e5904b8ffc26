import ConfigPack.Hook.Listener
import ConfigPack.Proofs.Work

/-!
# What listeners leave

Listeners hear a decision one after the other, each what the one before it left.  So a bus relates
what it hears to what it leaves as its listeners do.
-/

namespace ConfigPack

variable {σ α : Type} {hear : Listener σ → α → Hearing σ α} {bus : Bus σ}

/-- Where no listener acts, a decision stays as it is. -/
lemma Talk.withHost_pure {δ ε : Type} (wrap : δ → ε) (a : α) :
    (Talk.withHost wrap (pure a) : Talk σ ε α) = pure a := rfl

/-- What each listener does to a decision, whatever its state is, the bus does. -/
lemma Bus.emit_related {R : α → α → Prop} (hrefl : ∀ a, R a a)
    (htrans : ∀ a b c, R a b → R b c → R a c)
    (h : ∀ l ∈ bus, ∀ a b s s', (hear l a).run.run s = (.ok b, s') → R a b) {a c : α} {s s' : σ}
    (hrun : (bus.emit hear a).run.run s = (.ok c, s')) : R a c := by
  induction bus generalizing a s with
  | nil =>
    cases hrun
    exact hrefl _
  | cons l bus ih =>
    rw [Bus.emit, List.foldlM_cons] at hrun
    obtain ⟨b, s₁, hfirst, hrest⟩ := Work.run_bind_ok.1 hrun
    refine htrans a b c (h l List.mem_cons_self a b s s₁ hfirst) ?_
    exact ih (fun l' hl' => h l' (List.mem_cons_of_mem _ hl')) hrest

/-- A decision that no listener changes is the same for a bus as for none. -/
lemma Bus.emit_of_pure (h : ∀ l ∈ bus, ∀ a, hear l a = pure a) (a : α) :
    bus.emit hear a = pure a := by
  induction bus with
  | nil => rfl
  | cons l bus ih =>
    have hfirst := h l List.mem_cons_self a
    have hrest := ih fun l' hl' => h l' (List.mem_cons_of_mem _ hl')
    rw [Bus.emit, List.foldlM_cons, hfirst, pure_bind]
    exact hrest

/-- A listener that writes no file to another path than it was meant for. -/
structure Listener.KeepsPath (l : Listener σ) : Prop where
  write : ∀ draft draft' s s', (l.onWrite draft).run.run s = (.ok draft', s') →
    draft'.path = draft.path
  merge : ∀ draft draft' s s', (l.onMerge draft).run.run s = (.ok draft', s') →
    draft'.path = draft.path

/-- A bus of listeners that keep paths keeps the path of a write. -/
lemma Bus.emitWrite_path (h : ∀ l ∈ bus, l.KeepsPath) {draft draft' : Draft} {s s' : σ}
    (hrun : (bus.emitWrite draft).run.run s = (.ok draft', s')) : draft'.path = draft.path :=
  Bus.emit_related (R := fun a b : Draft => b.path = a.path) (fun _ => rfl)
    (fun _ _ _ hab hbc => hbc.trans hab) (fun l hl => (h l hl).write) hrun

/-- It keeps the path of a merge as well. -/
lemma Bus.emitMerge_path (h : ∀ l ∈ bus, l.KeepsPath) {draft draft' : Draft} {s s' : σ}
    (hrun : (bus.emitMerge draft).run.run s = (.ok draft', s')) : draft'.path = draft.path :=
  Bus.emit_related (R := fun a b : Draft => b.path = a.path) (fun _ => rfl)
    (fun _ _ _ hab hbc => hbc.trans hab) (fun l hl => (h l hl).merge) hrun

end ConfigPack
