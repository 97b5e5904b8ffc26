import ConfigPack.Proofs.Work

/-!
# Runs side by side

Two runs are alike when they have one result, leave one host and keep up a relation between their
file trees; what was logged may differ, and which errors chance will choose.  Likeness goes through
sequences and loops, so it is shown for single operations only.  A sequence may also pass from one
relation to another, and it may be alike but for errors between which chance has chosen (`Agree`).
-/

namespace ConfigPack

variable {σ ε δ α β : Type}

/-! ## Talking -/

/-- What a talk gives and how it leaves the host does not depend on the log. -/
def Talk.Blind (action : Talk σ ε α) : Prop :=
  ∀ j j', j.host = j'.host →
    (action.run.run j).1 = (action.run.run j').1 ∧
      (action.run.run j).2.host = (action.run.run j').2.host

namespace Talk.Blind

/-- What is returned at once does not depend on the log. -/
lemma pure (a : α) : Talk.Blind (pure a : Talk σ ε α) := fun _ _ h => ⟨rfl, h⟩

/-- A result that is known does not depend on the log. -/
lemma liftM (result : Except ε α) : Talk.Blind (liftM result : Talk σ ε α) := fun _ _ h => ⟨rfl, h⟩

/-- To log does not depend on what was logged before. -/
lemma log (level : LogLevel) (text : String) : Talk.Blind (Talk.log level text : Talk σ ε Unit) :=
  fun _ _ h => ⟨rfl, h⟩

/-- Listeners do not see the log. -/
lemma withHost (wrap : δ → ε) (action : ExceptT δ (StateM σ) α) :
    Talk.Blind (Talk.withHost wrap action) := by
  intro j j' h
  change ((action.run.run j.host).1.mapError wrap = (action.run.run j'.host).1.mapError wrap) ∧
    (action.run.run j.host).2 = (action.run.run j'.host).2
  rw [h]
  exact ⟨rfl, rfl⟩

/-- A sequence of blind talks is blind. -/
lemma bind {action : Talk σ ε α} {next : α → Talk σ ε β} (h : Talk.Blind action)
    (h' : ∀ a, Talk.Blind (next a)) : Talk.Blind (action >>= next) := by
  intro j j' hj
  obtain ⟨hresult, hhost⟩ := h j j' hj
  rw [Work.run_bind, Work.run_bind]
  rcases hx : action.run.run j with ⟨result, j₁⟩
  rcases hy : action.run.run j' with ⟨result', j₁'⟩
  rw [hx, hy] at hresult hhost
  cases hresult
  cases result with
  | error e => exact ⟨rfl, hhost⟩
  | ok a => exact h' a j₁ j₁' hhost

/-- A loop of blind talks is blind. -/
lemma foldlM {f : β → α → Talk σ ε β} (h : ∀ b a, Talk.Blind (f b a)) :
    ∀ (items : List α) (b : β), Talk.Blind (items.foldlM f b)
  | [], b => .pure b
  | a :: items, b => by
    rw [List.foldlM_cons]
    exact .bind (h b a) fun b' => foldlM h items b'

end Talk.Blind

/-! ## Working on two trees -/

namespace Work

/-- Worlds with one host and trees in a relation; for computations that draw chances for their
writes, these are the same as well. -/
structure Beside (draws : Prop) (R : FileTree → FileTree → Prop) (w w' : World σ) : Prop where
  host : w.journal.host = w'.journal.host
  writes : draws → w.chances.writes = w'.chances.writes
  tree : R w.tree w'.tree

/-- From worlds with trees in one relation, two computations give one result, and leave worlds with
trees in another relation. -/
def AlikeFrom (draws : Prop) (R R' : FileTree → FileTree → Prop) (action action' : Work σ ε α) :
    Prop :=
  ∀ w w', Beside draws R w w' → (exec action w).1 = (exec action' w').1 ∧
    Beside draws R' (exec action w).2 (exec action' w').2

/-- Two computations that keep up a relation between their trees. -/
def Alike (draws : Prop) (R : FileTree → FileTree → Prop) (action action' : Work σ ε α) : Prop :=
  AlikeFrom draws R R action action'

/-- One result, or two errors of which either might have been reported. -/
def Agree (rivals : ε → ε → Prop) (result result' : Except ε α) : Prop :=
  result = result' ∨ ∃ e e', result = .error e ∧ result' = .error e' ∧ rivals e e'

/-- Two computations that are alike but for the choice among errors. -/
def AlikeUpTo (rivals : ε → ε → Prop) (draws : Prop) (R R' : FileTree → FileTree → Prop)
    (action action' : Work σ ε α) : Prop :=
  ∀ w w', Beside draws R w w' → Agree rivals (exec action w).1 (exec action' w').1 ∧
    Beside draws R' (exec action w).2 (exec action' w').2

variable {draws : Prop} {R R' R'' : FileTree → FileTree → Prop} {rivals : ε → ε → Prop}

/-! ### Single operations -/

/-- What is returned at once is returned alike. -/
lemma Alike.pure (a : α) : Alike draws R (pure a : Work σ ε α) (pure a) :=
  fun _ _ hbeside => ⟨rfl, hbeside⟩

/-- A result that is known is the same in both worlds. -/
lemma Alike.liftM (result : Except ε α) :
    Alike draws R (liftM result : Work σ ε α) (liftM result) :=
  fun _ _ hbeside => ⟨rfl, hbeside⟩

/-- So is an error. -/
lemma Alike.throw (e : ε) : Alike draws R (throw e : Work σ ε α) (throw e) :=
  fun _ _ hbeside => ⟨rfl, hbeside⟩

/-- Logging different lines. -/
lemma Alike.log (level level' : LogLevel) (text text' : String) :
    Alike draws R (log level text : Work σ ε Unit) (log level' text') :=
  fun _ _ hbeside => ⟨rfl, hbeside.host, hbeside.writes, hbeside.tree⟩

/-- The same record on both sides. -/
lemma Alike.record (path : String) (outcome : FileOutcome) (reason : Option String) :
    Alike draws R (record path outcome reason : Work σ ε Unit) (record path outcome reason) :=
  fun _ _ hbeside => ⟨rfl, hbeside.host, hbeside.writes, hbeside.tree⟩

/-- Listeners that act on one host. -/
lemma Alike.withHost (wrap : δ → ε) (action : ExceptT δ (StateM σ) α) :
    Alike draws R (withHost wrap action) (withHost wrap action) := by
  intro w w' hbeside
  simp only [exec_withHost, hbeside.host]
  exact ⟨trivial, rfl, hbeside.writes, hbeside.tree⟩

/-- A talk that does not depend on the log, on one host. -/
lemma Alike.talk (wrap : δ → ε) {action : Talk σ δ α} (hblind : Talk.Blind action) :
    Alike draws R (talk wrap action) (talk wrap action) := by
  intro w w' hbeside
  obtain ⟨hresult, hhost⟩ := hblind w.journal w'.journal hbeside.host
  simp only [exec_talk, hresult]
  exact ⟨trivial, hhost, hbeside.writes, hbeside.tree⟩

/-- Looking at what is the same in both trees. -/
lemma Alike.look (wrap : δ → ε) {view view' : FileTree → Except δ α}
    (hview : ∀ t t', R t t' → view t = view' t') :
    Alike draws R (look wrap view : Work σ ε α) (look wrap view') := by
  intro w w' hbeside
  simp only [exec_look, hview _ _ hbeside.tree]
  exact ⟨trivial, hbeside⟩

/-- A step that may be refused half done, with one result in both trees. -/
lemma Alike.changePartly (wrap : δ → ε)
    {step step' : FileTree → FileTree × Except δ Unit}
    (hstep : ∀ t t', R t t' → (step t).2 = (step' t').2 ∧ R (step t).1 (step' t').1) :
    Alike draws R (changePartly wrap step : Work σ ε Unit) (changePartly wrap step') := by
  intro w w' hbeside
  obtain ⟨hresult, hR⟩ := hstep _ _ hbeside.tree
  simp only [exec_changePartly, hresult]
  exact ⟨trivial, hbeside.host, hbeside.writes, hR⟩

/-- Replacing the content of a path, with one result in both trees whatever chance decides. -/
lemma Alike.replace (wrap : IoError → ε) {path : String} {data : ByteArray} (hdraws : draws)
    (hstep : ∀ chance t t', R t t' →
      (t.replace chance path data).2 = (t'.replace chance path data).2 ∧
        R (t.replace chance path data).1 (t'.replace chance path data).1) :
    Alike draws R (replace wrap path data : Work σ ε Unit) (replace wrap path data) := by
  intro w w' hbeside
  have hwrites := hbeside.writes hdraws
  obtain ⟨hresult, hR⟩ := hstep (w.chances.writes 0) _ _ hbeside.tree
  simp only [exec_replace, ← hwrites, hresult]
  exact ⟨trivial, hbeside.host, fun _ => congrArg (fun f n => f (n + 1)) hwrites, hR⟩

/-! ### Sequences -/

/-- The second steps need to be alike for the results only that the first one may have. -/
lemma AlikeFrom.bind_of {action action' : Work σ ε α} {next next' : α → Work σ ε β} {P : α → Prop}
    (h : AlikeFrom draws R R' action action')
    (hP : ∀ {w a w'}, exec action w = (.ok a, w') → P a)
    (h' : ∀ a, P a → AlikeFrom draws R' R'' (next a) (next' a)) (hsub : ∀ t t', R' t t' → R'' t t') :
    AlikeFrom draws R R'' (action >>= next) (action' >>= next') := by
  intro w w' hbeside
  obtain ⟨hresult, hbeside₁⟩ := h w w' hbeside
  rw [exec_bind, exec_bind]
  rcases hx : exec action w with ⟨result, w₁⟩
  rcases hy : exec action' w' with ⟨result', w₁'⟩
  rw [hx, hy] at hresult hbeside₁
  cases hresult
  cases result with
  | error e => exact ⟨rfl, hbeside₁.host, hbeside₁.writes, hsub _ _ hbeside₁.tree⟩
  | ok a => exact h' a (hP hx) w₁ w₁' hbeside₁

/-- A sequence passes from the first relation to the second and on to a third that is implied. -/
lemma AlikeFrom.bind {action action' : Work σ ε α} {next next' : α → Work σ ε β}
    (h : AlikeFrom draws R R' action action')
    (h' : ∀ a, AlikeFrom draws R' R'' (next a) (next' a)) (hsub : ∀ t t', R' t t' → R'' t t') :
    AlikeFrom draws R R'' (action >>= next) (action' >>= next') :=
  h.bind_of (P := fun _ => True) (fun _ => trivial) (fun a _ => h' a) hsub

/-- The same change of errors on both sides. -/
lemma AlikeFrom.within (wrap : δ → ε) {action action' : Work σ δ α}
    (h : AlikeFrom draws R R' action action') :
    AlikeFrom draws R R' (within wrap action) (within wrap action') := by
  intro w w' hbeside
  obtain ⟨hresult, hbeside₁⟩ := h w w' hbeside
  simp only [exec_within, hresult]
  exact ⟨trivial, hbeside₁⟩

/-- The same, for one relation. -/
lemma Alike.within (wrap : δ → ε) {action action' : Work σ δ α} (h : Alike draws R action action') :
    Alike draws R (within wrap action) (within wrap action') :=
  AlikeFrom.within wrap h

/-- A sequence where the second step is alike for what the first one can give. -/
lemma Alike.bind_of {action action' : Work σ ε α} {next next' : α → Work σ ε β} {P : α → Prop}
    (h : Alike draws R action action') (hP : ∀ {w a w'}, exec action w = (.ok a, w') → P a)
    (h' : ∀ a, P a → Alike draws R (next a) (next' a)) :
    Alike draws R (action >>= next) (action' >>= next') :=
  AlikeFrom.bind_of h hP h' fun _ _ hR => hR

/-- A sequence of two steps that are alike. -/
lemma Alike.bind {action action' : Work σ ε α} {next next' : α → Work σ ε β}
    (h : Alike draws R action action') (h' : ∀ a, Alike draws R (next a) (next' a)) :
    Alike draws R (action >>= next) (action' >>= next') :=
  h.bind_of (P := fun _ => True) (fun _ => trivial) fun a _ => h' a

/-- Loops over items that are dealt with alike. -/
lemma Alike.mapM {γ : Type} {f : α → Work σ ε β} {f' : γ → Work σ ε β} {items : List α}
    {items' : List γ} (h : List.Forall₂ (fun a a' => Alike draws R (f a) (f' a')) items items') :
    Alike draws R (items.mapM f) (items'.mapM f') := by
  induction h with
  | nil =>
    rw [List.mapM_nil, List.mapM_nil]
    exact .pure _
  | cons hfirst _ ih =>
    rw [List.mapM_cons, List.mapM_cons]
    refine .bind hfirst fun b => .bind ih fun bs => ?_
    exact .pure _

/-- A loop whose steps are alike for each of its items. -/
lemma Alike.forM {f f' : α → Work σ ε PUnit} {items : List α}
    (h : ∀ a ∈ items, Alike draws R (f a) (f' a)) :
    Alike draws R (items.forM f) (items.forM f') := by
  induction items with
  | nil => exact .pure _
  | cons a items ih =>
    exact .bind (h a List.mem_cons_self) fun _ => ih fun x hx => h x (List.mem_cons_of_mem _ hx)

/-! ### Up to the choice among errors -/

/-- What is alike is so up to any choice. -/
lemma AlikeFrom.upTo {action action' : Work σ ε α} (h : AlikeFrom draws R R' action action')
    (rivals : ε → ε → Prop) : AlikeUpTo rivals draws R R' action action' :=
  fun w w' hbeside => (h w w' hbeside).imp .inl id

/-- A sequence that begins alike. -/
lemma AlikeFrom.bind_upTo {action action' : Work σ ε α} {next next' : α → Work σ ε β}
    (h : AlikeFrom draws R R' action action')
    (h' : ∀ a, AlikeUpTo rivals draws R' R'' (next a) (next' a))
    (hsub : ∀ t t', R' t t' → R'' t t') :
    AlikeUpTo rivals draws R R'' (action >>= next) (action' >>= next') := by
  intro w w' hbeside
  obtain ⟨hresult, hbeside₁⟩ := h w w' hbeside
  rw [exec_bind, exec_bind]
  rcases hx : exec action w with ⟨result, w₁⟩
  rcases hy : exec action' w' with ⟨result', w₁'⟩
  rw [hx, hy] at hresult hbeside₁
  cases hresult
  cases result with
  | error e => exact ⟨.inl rfl, hbeside₁.host, hbeside₁.writes, hsub _ _ hbeside₁.tree⟩
  | ok a => exact h' a w₁ w₁' hbeside₁

/-- A sequence that goes on alike behind a choice. -/
lemma AlikeUpTo.bind {action action' : Work σ ε α} {next next' : α → Work σ ε β}
    (h : AlikeUpTo rivals draws R R' action action')
    (h' : ∀ a, AlikeFrom draws R' R'' (next a) (next' a)) (hsub : ∀ t t', R' t t' → R'' t t') :
    AlikeUpTo rivals draws R R'' (action >>= next) (action' >>= next') := by
  intro w w' hbeside
  obtain ⟨hresult, hbeside₁⟩ := h w w' hbeside
  rw [exec_bind, exec_bind]
  rcases hx : exec action w with ⟨result, w₁⟩
  rcases hy : exec action' w' with ⟨result', w₁'⟩
  rw [hx, hy] at hresult hbeside₁
  have hsame : Beside draws R'' w₁ w₁' :=
    ⟨hbeside₁.host, hbeside₁.writes, hsub _ _ hbeside₁.tree⟩
  rcases hresult with hresult | ⟨e, e', he, he', hrivals⟩
  · cases hresult
    cases result with
    | error e => exact ⟨.inl rfl, hsame⟩
    | ok a => exact (h' a).upTo rivals w₁ w₁' hbeside₁
  · dsimp only at he he'
    subst he he'
    exact ⟨.inr ⟨e, e', rfl, rfl, hrivals⟩, hsame⟩

/-- Errors get other names. -/
lemma AlikeUpTo.within {wrap : δ → ε} {rivals : δ → δ → Prop} {rivals' : ε → ε → Prop}
    {action action' : Work σ δ α} (h : AlikeUpTo rivals draws R R' action action')
    (hwrap : ∀ d d', rivals d d' → rivals' (wrap d) (wrap d')) :
    AlikeUpTo rivals' draws R R' (within wrap action) (within wrap action') := by
  intro w w' hbeside
  obtain ⟨hresult, hbeside₁⟩ := h w w' hbeside
  refine ⟨?_, hbeside₁⟩
  simp only [exec_within]
  rcases hresult with hresult | ⟨d, d', hd, hd', hrivals⟩
  · exact .inl (congrArg (Except.mapError wrap) hresult)
  · rw [hd, hd']
    exact .inr ⟨_, _, rfl, rfl, hwrap d d' hrivals⟩

end Work

end ConfigPack
