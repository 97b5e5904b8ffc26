import ConfigPack.Proofs.Result
import ConfigPack.World

/-!
# Running computations on worlds

A computation is run from a world to its result and the world that it leaves.  The equations say
what each way of building a computation does to both, and the two inversions of a bind take a run
of a sequence apart: it succeeded when every step did, and it failed at the first step or behind it.
A computation is still (`Still`) when it never touches a file, whether it succeeds or fails.
-/

namespace ConfigPack.Work

variable {σ ε δ α β : Type}

/-- The result of a computation and the world that it leaves. -/
def exec (action : Work σ ε α) (w : World σ) : Except ε α × World σ := action.run.run w

@[simp] lemma exec_pure (a : α) (w : World σ) :
    exec (pure a : Work σ ε α) w = (.ok a, w) := rfl

@[simp] lemma exec_throw (e : ε) (w : World σ) :
    exec (throw e : Work σ ε α) w = (.error e, w) := rfl

@[simp] lemma exec_get (w : World σ) : exec (get : Work σ ε (World σ)) w = (.ok w, w) := rfl

@[simp] lemma exec_liftM (result : Except ε α) (w : World σ) :
    exec (liftM result : Work σ ε α) w = (result, w) := rfl

/-- The second step of a sequence starts in the state that the first one leaves. -/
lemma run_bind {τ : Type} (action : ExceptT ε (StateM τ) α) (next : α → ExceptT ε (StateM τ) β)
    (s : τ) :
    (action >>= next).run.run s =
      match action.run.run s with
      | (.ok a, s') => (next a).run.run s'
      | (.error e, s') => (.error e, s') := by
  change (action.run s >>= fun _ => _) = _
  rcases h : action.run.run s with ⟨_ | a, s'⟩
  all_goals
    change ExceptT.bindCont next (action.run.run s).1 (action.run.run s).2 = _
    rw [h]
    rfl

/-- A sequence stops at the first error, in the world that it leaves. -/
lemma exec_bind (action : Work σ ε α) (next : α → Work σ ε β) (w : World σ) :
    exec (action >>= next) w =
      match exec action w with
      | (.ok a, w') => exec (next a) w'
      | (.error e, w') => (.error e, w') := by
  have h := run_bind action next w
  rcases hx : exec action w with ⟨_ | a, w'⟩
  all_goals
    rw [show action.run.run w = _ from hx] at h
    exact h

/-- A changed result leaves the world as it is. -/
@[simp] lemma exec_map (f : α → β) (action : Work σ ε α) (w : World σ) :
    exec (f <$> action) w = ((exec action w).1.map f, (exec action w).2) := by
  rw [map_eq_pure_bind, exec_bind]
  rcases exec action w with ⟨_ | a, w'⟩ <;> rfl

/-- A sequence succeeded when both of its steps did. -/
lemma run_bind_ok {τ : Type} {action : ExceptT ε (StateM τ) α} {next : α → ExceptT ε (StateM τ) β}
    {s s'' : τ} {b : β} :
    (action >>= next).run.run s = (.ok b, s'') ↔
      ∃ a s', action.run.run s = (.ok a, s') ∧ (next a).run.run s' = (.ok b, s'') := by
  rw [run_bind]
  rcases action.run.run s with ⟨e | a, s'⟩
  · constructor
    · intro h
      cases h
    · rintro ⟨_, _, h, _⟩
      cases h
  · constructor
    · intro h
      exact ⟨a, s', rfl, h⟩
    · rintro ⟨_, _, h, h'⟩
      cases h
      exact h'

/-- A sequence succeeds when both of its steps do, the second in the world that the first one
leaves. -/
lemma exec_bind_ok {action : Work σ ε α} {next : α → Work σ ε β} {w w'' : World σ} {b : β} :
    exec (action >>= next) w = (.ok b, w'') ↔
      ∃ a w', exec action w = (.ok a, w') ∧ exec (next a) w' = (.ok b, w'') :=
  run_bind_ok

/-- A sequence failed at its first step or behind it. -/
lemma exec_bind_error {action : Work σ ε α} {next : α → Work σ ε β} {w w'' : World σ} {e : ε} :
    exec (action >>= next) w = (.error e, w'') ↔
      exec action w = (.error e, w'') ∨
        ∃ a w', exec action w = (.ok a, w') ∧ exec (next a) w' = (.error e, w'') := by
  rw [exec_bind]
  rcases exec action w with ⟨e' | a, w'⟩
  · constructor
    · intro h
      cases h
      exact .inl rfl
    · rintro (h | ⟨_, _, h, _⟩)
      · cases h
        rfl
      · cases h
  · constructor
    · intro h
      exact .inr ⟨a, w', rfl, h⟩
    · rintro (h | ⟨_, _, h, h'⟩)
      · cases h
      · cases h
        exact h'

/-- A sequence ends at a failure of its first step, or goes on behind it. -/
lemma exec_bind_cases {action : Work σ ε α} {next : α → Work σ ε β} {w w'' : World σ}
    {result : Except ε β} (h : exec (action >>= next) w = (result, w'')) :
    (∃ e, exec action w = (.error e, w'') ∧ result = .error e) ∨
      ∃ a w', exec action w = (.ok a, w') ∧ exec (next a) w' = (result, w'') := by
  cases result with
  | ok b => exact .inr (exec_bind_ok.1 h)
  | error e => exact (exec_bind_error.1 h).imp (fun h => ⟨e, h, rfl⟩) id

/-- A talk changes the journal only. -/
@[simp] lemma exec_talk (wrap : δ → ε) (action : Talk σ δ α) (w : World σ) :
    exec (talk wrap action) w =
      ((action.run.run w.journal).1.mapError wrap,
        { w with journal := (action.run.run w.journal).2 }) := rfl

/-- A line of the log is put behind those before it. -/
@[simp] lemma exec_log (level : LogLevel) (text : String) (w : World σ) :
    exec (log level text : Work σ ε Unit) w =
      (.ok (), { w with journal.log := w.journal.log.push (.line level text) }) := rfl

/-- What listeners do changes the state of the host only. -/
@[simp] lemma exec_withHost (wrap : δ → ε) (action : ExceptT δ (StateM σ) α)
    (w : World σ) :
    exec (withHost wrap action) w =
      ((action.run.run w.journal.host).1.mapError wrap,
        { w with journal.host := (action.run.run w.journal.host).2 }) := by
  change (((action.run.run w.journal.host).1.mapError wrap).mapError id, _) = _
  cases (action.run.run w.journal.host).1 <;> rfl

/-- To look at the files changes nothing. -/
@[simp] lemma exec_look (wrap : δ → ε) (view : FileTree → Except δ α) (w : World σ) :
    exec (look wrap view) w = ((view w.tree).mapError wrap, w) := rfl

/-- A step that may be refused half done leaves what it has done so far. -/
@[simp] lemma exec_changePartly (wrap : δ → ε)
    (step : FileTree → FileTree × Except δ Unit) (w : World σ) :
    exec (changePartly wrap step) w =
      ((step w.tree).2.mapError wrap, { w with tree := (step w.tree).1 }) := rfl

/-- The content of a path is replaced with the next chance of a write. -/
@[simp] lemma exec_replace (wrap : IoError → ε) (path : String) (data : ByteArray) (w : World σ) :
    exec (replace wrap path data) w =
      ((w.tree.replace (w.chances.writes 0) path data).2.mapError wrap,
        { w with
          tree := (w.tree.replace (w.chances.writes 0) path data).1
          chances := w.chances.afterWrite }) := rfl

/-- The next chance of a report is drawn. -/
@[simp] lemma exec_drawReport (w : World σ) :
    exec (drawReport : Work σ ε Nat) w =
      (.ok (w.chances.reports 0), { w with chances := w.chances.afterReport }) := rfl

/-- Another error in place of an error leaves the world as it is. -/
@[simp] lemma exec_within (wrap : δ → ε) (action : Work σ δ α) (w : World σ) :
    exec (within wrap action) w = ((exec action w).1.mapError wrap, (exec action w).2) := rfl

/-- A step that is refused as a whole changes no file. -/
lemma exec_change (wrap : δ → ε) (step : FileTree → Except δ FileTree) (w : World σ) :
    exec (change wrap step) w =
      match step w.tree with
      | .ok tree => (.ok (), { w with tree })
      | .error e => (.error (wrap e), w) := by
  rw [change, exec_bind, exec_look]
  rcases step w.tree with e | tree <;> rfl

/-- A change that succeeded was not refused. -/
lemma exec_change_ok {wrap : δ → ε} {step : FileTree → Except δ FileTree} {w w' : World σ}
    {u : Unit} (h : exec (change wrap step) w = (.ok u, w')) :
    step w.tree = .ok w'.tree ∧ w' = { w with tree := w'.tree } := by
  rw [exec_change] at h
  split at h
  next tree ht =>
    cases h
    exact ⟨ht, rfl⟩
  next => cases h

/-- When the content of a path was replaced, the file tree is that with the new content. -/
lemma exec_replace_ok {wrap : IoError → ε} {path : String} {data : ByteArray} {w w' : World σ}
    {u : Unit} (h : exec (replace wrap path data) w = (.ok u, w')) :
    w.tree.replace (w.chances.writes 0) path data = (w'.tree, .ok ()) := by
  rw [exec_replace, Prod.mk.injEq, Result.mapError_eq_ok] at h
  obtain ⟨hdone, rfl⟩ := h
  exact Prod.ext rfl hdone

/-- When that was refused, it was with an error of the file tree. -/
lemma exec_replace_error {wrap : IoError → ε} {path : String} {data : ByteArray} {w w' : World σ}
    {e : ε} (h : exec (replace wrap path data) w = (.error e, w')) :
    ∃ d, wrap d = e ∧ w.tree.replace (w.chances.writes 0) path data = (w'.tree, .error d) := by
  rw [exec_replace, Prod.mk.injEq, Result.mapError_eq_error] at h
  obtain ⟨⟨d, hrefused, hwrap⟩, rfl⟩ := h
  exact ⟨d, hwrap, Prod.ext rfl hrefused⟩

/-- A computation for each item of a list succeeded when each of them did, one after the other. -/
lemma exec_mapM_cons_ok {f : α → Work σ ε β} {a : α} {items : List α} {bs : List β}
    {w w' : World σ} :
    exec ((a :: items).mapM f) w = (.ok bs, w') ↔
      ∃ b bs' w₁, exec (f a) w = (.ok b, w₁) ∧ exec (items.mapM f) w₁ = (.ok bs', w') ∧
        bs = b :: bs' := by
  rw [List.mapM_cons]
  constructor
  · intro h
    obtain ⟨b, w₁, hb, h⟩ := exec_bind_ok.1 h
    obtain ⟨bs', _, hbs, h⟩ := exec_bind_ok.1 h
    cases h
    exact ⟨b, bs', w₁, hb, hbs, rfl⟩
  · rintro ⟨b, bs', w₁, hb, hbs, rfl⟩
    exact exec_bind_ok.2 ⟨b, w₁, hb, exec_bind_ok.2 ⟨bs', w', hbs, rfl⟩⟩

/-- Each result is that of an item, in the world that the items before it left. -/
lemma exec_mapM_mem {f : α → Work σ ε β} :
    ∀ {items : List α} {bs : List β} {w w' : World σ} {b : β},
      exec (items.mapM f) w = (.ok bs, w') → b ∈ bs →
      ∃ a ∈ items, ∃ before after, exec (f a) before = (.ok b, after)
  | [], bs, w, w', b, h, hb => by
    cases h
    cases hb
  | a :: items, bs, w, w', b, h, hb => by
    obtain ⟨first, rest, w₁, hfirst, hrest, rfl⟩ := exec_mapM_cons_ok.1 h
    rcases List.mem_cons.1 hb with rfl | hb
    · exact ⟨a, List.mem_cons_self, w, w₁, hfirst⟩
    · obtain ⟨a', ha', hexec⟩ := exec_mapM_mem hrest hb
      exact ⟨a', List.mem_cons_of_mem _ ha', hexec⟩

/-- It failed at the first item or behind it. -/
lemma exec_mapM_cons_error {f : α → Work σ ε β} {a : α} {items : List α} {e : ε}
    {w w' : World σ} (h : exec ((a :: items).mapM f) w = (.error e, w')) :
    exec (f a) w = (.error e, w') ∨
      ∃ b w₁, exec (f a) w = (.ok b, w₁) ∧ exec (items.mapM f) w₁ = (.error e, w') := by
  rw [List.mapM_cons] at h
  rcases exec_bind_error.1 h with h | ⟨b, w₁, hb, h⟩
  · exact .inl h
  · rcases exec_bind_error.1 h with h | ⟨_, _, _, h⟩
    · exact .inr ⟨b, w₁, hb, h⟩
    · cases h

/-- When it failed, it failed at one of the items. -/
lemma exec_mapM_error {f : α → Work σ ε β} {items : List α} {e : ε} {w w' : World σ}
    (h : exec (items.mapM f) w = (.error e, w')) :
    ∃ a ∈ items, ∃ before after, exec (f a) before = (.error e, after) := by
  induction items generalizing w with
  | nil => cases h
  | cons a items ih =>
    rcases exec_mapM_cons_error h with ha | ⟨_, w₁, _, hrest⟩
    · exact ⟨a, List.mem_cons_self, w, w', ha⟩
    · obtain ⟨a', ha', hexec⟩ := ih hrest
      exact ⟨a', List.mem_cons_of_mem _ ha', hexec⟩

/-- A loop goes through its items one after the other and stops at the first error. -/
lemma exec_forM_cons (f : α → Work σ ε PUnit) (a : α) (items : List α) (w : World σ) :
    exec ((a :: items).forM f) w =
      match exec (f a) w with
      | (.ok _, w') => exec (items.forM f) w'
      | (.error e, w') => (.error e, w') := by
  have h := exec_bind (f a) (fun _ => items.forM f) w
  rcases hx : exec (f a) w with ⟨_ | u, w'⟩
  all_goals
    rw [hx] at h
    exact h

/-- An action for the items of two lists succeeded when it did for the first and then for the
second. -/
lemma exec_forM_append_ok {f : α → Work σ ε PUnit} {front back : List α} {u : PUnit}
    {w w' : World σ} (h : exec ((front ++ back).forM f) w = (.ok u, w')) :
    ∃ w₁, exec (front.forM f) w = (.ok ⟨⟩, w₁) ∧ exec (back.forM f) w₁ = (.ok u, w') := by
  induction front generalizing w with
  | nil => exact ⟨w, rfl, h⟩
  | cons a front ih =>
    rw [List.cons_append, exec_forM_cons] at h
    rw [exec_forM_cons]
    rcases hf : exec (f a) w with ⟨e | u₁, w₁⟩
    all_goals rw [hf] at h
    · cases h
    · exact ih h

/-- An action for each item succeeded when each of them did. -/
lemma exec_forM_ok {f : α → Work σ ε PUnit} {items : List α} {u : PUnit} {w w' : World σ}
    (h : exec (items.forM f) w = (.ok u, w')) {a : α} (ha : a ∈ items) :
    ∃ before after, exec (f a) before = (.ok ⟨⟩, after) := by
  induction items generalizing w with
  | nil => cases ha
  | cons first items ih =>
    rw [exec_forM_cons] at h
    rcases hf : exec (f first) w with ⟨e | u₁, w₁⟩
    all_goals rw [hf] at h
    · cases h
    · rcases List.mem_cons.1 ha with rfl | ha
      · exact ⟨w, w₁, hf⟩
      · exact ih h ha

/-- An action for each item failed at one of them. -/
lemma exec_forM_error {f : α → Work σ ε PUnit} {items : List α} {e : ε} {w w' : World σ}
    (h : exec (items.forM f) w = (.error e, w')) :
    ∃ a ∈ items, ∃ before after, exec (f a) before = (.error e, after) := by
  induction items generalizing w with
  | nil => cases h
  | cons a items ih =>
    rw [exec_forM_cons] at h
    rcases hf : exec (f a) w with ⟨e' | u, w₁⟩
    · rw [hf] at h
      cases h
      exact ⟨a, List.mem_cons_self, w, w', hf⟩
    · rw [hf] at h
      obtain ⟨a', ha', hexec⟩ := ih h
      exact ⟨a', List.mem_cons_of_mem _ ha', hexec⟩

/-- What each action of a loop keeps up, the loop keeps up. -/
lemma exec_forM_invariant {f : α → Work σ ε PUnit} {items : List α} {P : World σ → Prop}
    (hstep : ∀ a ∈ items, ∀ before, P before → P (exec (f a) before).2) {w : World σ}
    (hw : P w) : P (exec (items.forM f) w).2 := by
  induction items generalizing w with
  | nil => exact hw
  | cons a items ih =>
    have hfirst := hstep a List.mem_cons_self w hw
    rw [exec_forM_cons]
    rcases hf : exec (f a) w with ⟨e | u, w₁⟩
    all_goals rw [hf] at hfirst
    · exact hfirst
    · exact ih (fun x hx => hstep x (List.mem_cons_of_mem _ hx)) hfirst

/-! ## Computations that keep up a property of the files -/

/-- A computation that keeps up a property of the files, whatever its result is. -/
def Preserves (P : FileTree → Prop) (action : Work σ ε α) : Prop :=
  ∀ w, P w.tree → P (exec action w).2.tree

section

variable {P : FileTree → Prop}

/-- To do nothing preserves everything. -/
lemma Preserves.pure (a : α) : Preserves P (pure a : Work σ ε α) := fun _ h => h

/-- What the first step of a sequence leaves in order, the others keep up. -/
lemma Preserves.after {action : Work σ ε α} {next : α → Work σ ε β} {w : World σ}
    (h : P (exec action w).2.tree) (h' : ∀ a, Preserves P (next a)) :
    P (exec (action >>= next) w).2.tree := by
  rw [exec_bind]
  rcases hx : exec action w with ⟨e | a, w'⟩
  all_goals rw [hx] at h
  · exact h
  · exact h' a w' h

/-- A sequence preserves what both of its steps do. -/
lemma Preserves.bind {action : Work σ ε α} {next : α → Work σ ε β} (h : Preserves P action)
    (h' : ∀ a, Preserves P (next a)) : Preserves P (action >>= next) :=
  fun w hw => Preserves.after (h w hw) h'

/-- Another error in place of an error does not matter. -/
lemma Preserves.within {action : Work σ δ α} (wrap : δ → ε) (h : Preserves P action) :
    Preserves P (within wrap action) :=
  fun w => h w

/-- A loop preserves what each of its steps does. -/
lemma Preserves.mapM {f : α → Work σ ε β} {items : List α} (h : ∀ a ∈ items, Preserves P (f a)) :
    Preserves P (items.mapM f) := by
  induction items with
  | nil =>
    rw [List.mapM_nil]
    exact .pure _
  | cons a items ih =>
    rw [List.mapM_cons]
    refine .bind (h a List.mem_cons_self) fun b => ?_
    refine .bind (ih fun x hx => h x (List.mem_cons_of_mem _ hx)) fun bs => ?_
    exact .pure _

/-- A loop without results preserves what each of its steps does. -/
lemma Preserves.forM {f : α → Work σ ε PUnit} {items : List α}
    (h : ∀ a ∈ items, Preserves P (f a)) : Preserves P (items.forM f) :=
  fun _ hw => exec_forM_invariant (fun a ha before hbefore => h a ha before hbefore) hw

end

/-! ## Computations that leave the files alone -/

/-- A computation that leaves the files as they are, whatever its result is. -/
def Still (action : Work σ ε α) : Prop := ∀ w, (exec action w).2.tree = w.tree

/-- To leave the files alone is to keep up every property of them, so whatever builds computations
of the one kind builds those of the other. -/
lemma still_iff {action : Work σ ε α} : Still action ↔ ∀ P, Preserves P action := by
  constructor
  · intro h P w hw
    rw [h w]
    exact hw
  · intro h w
    exact h (· = w.tree) w rfl

/-- What leaves all files as they are preserves everything that is said about them. -/
lemma Still.preserves {P : FileTree → Prop} {action : Work σ ε α} (h : Still action) :
    Preserves P action :=
  still_iff.1 h P

/-- To return a result changes no file. -/
lemma Still.pure (a : α) : Still (pure a : Work σ ε α) := fun _ => rfl

/-- To fail changes no file. -/
lemma Still.throw (e : ε) : Still (throw e : Work σ ε α) := fun _ => rfl

/-- A result that is known changes no file. -/
lemma Still.liftM (result : Except ε α) : Still (liftM result : Work σ ε α) := fun _ => rfl

/-- A line of the log is no file. -/
lemma Still.log (level : LogLevel) (text : String) : Still (log level text : Work σ ε Unit) :=
  fun _ => rfl

/-- Nor is the record of one. -/
lemma Still.record (path : String) (outcome : FileOutcome) (reason : Option String) :
    Still (record path outcome reason : Work σ ε Unit) :=
  fun _ => rfl

/-- To talk to the host changes no file. -/
lemma Still.talk (wrap : δ → ε) (action : Talk σ δ α) : Still (talk wrap action) := fun _ => rfl

/-- Listeners do not touch the files themselves. -/
lemma Still.withHost (wrap : δ → ε) (action : ExceptT δ (StateM σ) α) :
    Still (withHost wrap action) :=
  fun _ => rfl

/-- To look at the files does not change them. -/
lemma Still.look (wrap : δ → ε) (view : FileTree → Except δ α) :
    Still (look wrap view : Work σ ε α) :=
  fun _ => rfl

/-- To draw which error is reported changes no file. -/
lemma Still.drawReport : Still (drawReport : Work σ ε Nat) := fun _ => rfl

/-- A sequence of two steps that leave the files leaves them. -/
lemma Still.bind {action : Work σ ε α} {next : α → Work σ ε β} (h : Still action)
    (h' : ∀ a, Still (next a)) : Still (action >>= next) :=
  still_iff.2 fun _ => .bind h.preserves fun a => (h' a).preserves

/-- So does a step with other errors. -/
lemma Still.within {action : Work σ δ α} (wrap : δ → ε) (h : Still action) :
    Still (within wrap action) :=
  fun w => h w

/-- So does a loop. -/
lemma Still.mapM {f : α → Work σ ε β} {items : List α} (h : ∀ a ∈ items, Still (f a)) :
    Still (items.mapM f) :=
  still_iff.2 fun _ => .mapM fun a ha => (h a ha).preserves

/-- So does a loop without results. -/
lemma Still.forM {f : α → Work σ ε PUnit} {items : List α} (h : ∀ a ∈ items, Still (f a)) :
    Still (items.forM f) :=
  still_iff.2 fun _ => .forM fun a ha => (h a ha).preserves

/-- What a still computation does happens in the tree it started from. -/
lemma Still.tree {action : Work σ ε α} (h : Still action) {w w' : World σ} {result : Except ε α}
    (hw : exec action w = (result, w')) : w'.tree = w.tree := by
  have := h w
  rwa [hw] at this

end ConfigPack.Work
