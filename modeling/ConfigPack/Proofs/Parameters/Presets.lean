import ConfigPack.Hook.Preset
import ConfigPack.Proofs.Dict
import ConfigPack.Proofs.Parameters.Equations
import Mathlib.Tactic.FinCases

/-!
# Presets and typed answers

A preset parameter is not asked for: the listener puts the value there before its turn.  So a run
with presets is followed, parameter by parameter, by one without them in which the user types the
same values (`foldlM_typing`), and the prompter is asked only what is left open, in order, as far as
the run comes (`foldlM_recording`).
-/

namespace ConfigPack

variable {σ ξ ε α : Type}

/-! ## Assignments -/

namespace Presets

/-- The text that assigns a value to an id. -/
def assignment (pair : String × String) : String := pair.1 ++ "=" ++ pair.2

/-- The text that pairs give an id; of two for one id the later counts. -/
def given (pairs : List (String × String)) (id : String) : Option String := pairs.reverse.lookup id

/-- An assignment is divided at its first equals sign. -/
lemma splitAssignment_append {id : List Char} (hid : '=' ∉ id) (before value : List Char) :
    splitAssignment before (id ++ '=' :: value) =
      some (String.ofList (before.reverse ++ id), String.ofList value) := by
  induction id generalizing before with
  | nil => rw [List.nil_append, splitAssignment, List.append_nil]
  | cons c id ih =>
    rw [List.mem_cons, not_or] at hid
    rw [List.cons_append, splitAssignment, ih hid.2, List.reverse_cons, List.append_assoc,
      List.singleton_append]
    exact fun hc => hid.1 hc.symm

/-- An assignment is read at its first equals sign. -/
lemma readAssignment_assignment {pair : String × String} (hid : pair.1 ≠ "")
    (hplain : '=' ∉ pair.1.toList) : readAssignment (assignment pair) = .ok pair := by
  have hsplit : splitAssignment [] (assignment pair).toList = some pair := by
    rw [assignment, String.toList_append, String.toList_append, List.append_assoc]
    refine (splitAssignment_append hplain [] pair.2.toList).trans ?_
    rw [List.reverse_nil, List.nil_append, String.ofList_toList, String.ofList_toList]
  rw [readAssignment, hsplit]
  exact if_neg hid

/-- Assignments are read back as what they assign. -/
lemma ofAssignments_assignment {pairs : List (String × String)}
    (h : ∀ pair ∈ pairs, pair.1 ≠ "" ∧ '=' ∉ pair.1.toList) :
    ofAssignments (pairs.map assignment) = .ok ⟨Dict.ofList pairs⟩ := by
  have hread : (pairs.map assignment).mapM readAssignment = .ok pairs := by
    induction pairs with
    | nil => rfl
    | cons pair pairs ih =>
      obtain ⟨hid, hplain⟩ := h pair List.mem_cons_self
      rw [List.map_cons, List.mapM_cons, readAssignment_assignment hid hplain,
        ih fun pair hpair => h pair (List.mem_cons_of_mem _ hpair)]
      rfl
  rw [ofAssignments, hread]
  rfl

end Presets

/-! ## Prompters -/

/-- A user who types answers at a prompter.  The script has an entry for each question that is to
come; where it has no answer, the prompter is asked. -/
def Prompter.typing (prompter : Prompter σ) : Prompter (List (Option Value) × σ) := fun question =>
  ExceptT.mk fun (script, s) =>
    match script with
    | some value :: rest => (.ok value, rest, s)
    | _ =>
      let (answer, s') := (prompter question).run.run s
      (answer, script.tail, s')

/-- A prompter that keeps the questions it is asked, in order. -/
def Prompter.recording (prompter : Prompter σ) : Prompter (List Question × σ) := fun question =>
  ExceptT.mk fun (asked, s) =>
    let (answer, s') := (prompter question).run.run s
    (answer, asked ++ [question], s')

/-- What was typed is the answer. -/
lemma Prompter.typing_some (prompter : Prompter σ) (question : Question) (value : Value)
    (rest : List (Option Value)) (s : σ) :
    (prompter.typing question).run.run (some value :: rest, s) = (.ok value, rest, s) := rfl

/-- Where nothing was typed the prompter is asked. -/
lemma Prompter.typing_none (prompter : Prompter σ) (question : Question)
    (rest : List (Option Value)) (s : σ) :
    (prompter.typing question).run.run (none :: rest, s) =
      (((prompter question).run.run s).1, rest, ((prompter question).run.run s).2) := rfl

/-- The value of a text that is typed as the answer of a parameter. -/
def ParameterRule.typed? (text : String) : ParameterRule → Option Value
  | .ask ⟨.text, _, _⟩ => some (.text text)
  | .ask ⟨.confirm, _, _⟩ => (Presets.boolean? text).map .bool
  | .compute _ => none

/-- What a rule takes for typed is its value as a preset. -/
lemma ParameterRule.valueFor_of_typed {p : Parameter} {text : String} {value : Value}
    (h : p.rule.typed? text = some value) : Presets.valueFor p text = .ok value := by
  obtain ⟨id, rule⟩ := p
  match rule with
  | .ask ⟨.text, _, _⟩ =>
    cases h
    rfl
  | .ask ⟨.confirm, _, _⟩ =>
    obtain ⟨b, hb, rfl⟩ := Option.map_eq_some_iff.1 h
    simp only [Presets.valueFor, hb]
  | .compute _ => cases h

namespace Parameters

variable {given : String → Option String} {presets : Presets} {prompter : Prompter σ}
  {declared : List String} {env env' : ParameterEnv} {p : Parameter} {items : List Parameter}
  {parameters : List Parameter}

/-- Texts are given only for parameters that are asked for, and can be typed there. -/
def Fits (given : String → Option String) (parameters : List Parameter) : Prop :=
  ∀ p ∈ parameters, ∀ text, given p.id = some text → ∃ value, p.rule.typed? text = some value

/-- For each question of parameters, what a user types who knows the given texts. -/
def script (given : String → Option String) (parameters : List Parameter) : List (Option Value) :=
  parameters.filterMap fun p =>
    match p.rule with
    | .ask _ => some ((given p.id).bind fun text => p.rule.typed? text)
    | .compute _ => none

/-- The questions of parameters for which no text is given. -/
def openQuestions (given : String → Option String) (parameters : List Parameter) : List Question :=
  parameters.filterMap fun p =>
    match p.rule with
    | .ask question => if (given p.id).isSome then none else some question
    | .compute _ => none

/-- A question takes the next thing that was typed. -/
lemma script_ask {question : Question} (hrule : p.rule = .ask question) :
    script given (p :: items) =
      ((given p.id).bind fun text => p.rule.typed? text) :: script given items := by
  rw [script, List.filterMap_cons, hrule]
  rfl

/-- What is computed takes nothing. -/
lemma script_compute {node : Expr} (hrule : p.rule = .compute node) :
    script given (p :: items) = script given items := by
  rw [script, List.filterMap_cons, hrule]
  rfl

/-- The open questions come in the order of the parameters. -/
lemma openQuestions_append (front back : List Parameter) :
    openQuestions given (front ++ back) = openQuestions given front ++ openQuestions given back :=
  List.filterMap_append

/-- A question is open when nothing is given for it. -/
lemma openQuestions_ask {question : Question} (hrule : p.rule = .ask question) :
    openQuestions given [p] = if (given p.id).isSome then [] else [question] := by
  rw [openQuestions, List.filterMap_cons, hrule]
  cases given p.id <;> rfl

/-- What is computed is no question. -/
lemma openQuestions_compute {node : Expr} (hrule : p.rule = .compute node) :
    openQuestions given [p] = [] := by
  rw [openQuestions, List.filterMap_cons, hrule]
  rfl

/-- The parameters that a run comes to: all of them, or those up to the one that fails. -/
def Reached (declared : List String) (prompter : Prompter σ) (bus : Bus σ) (env : ParameterEnv)
    (items front : List Parameter) (j : Journal σ) : Prop :=
  match ((items.foldlM (resolveNext declared prompter bus) env).run.run j).1 with
  | .ok _ => front = items
  | .error e => ∃ earlier p back env' k, items = earlier ++ p :: back ∧ front = earlier ++ [p] ∧
      (earlier.foldlM (resolveNext declared prompter bus) env).run.run j = (.ok env', k) ∧
      ((resolveNext declared prompter bus env' p).run.run k).1 = .error e

/-! ## One parameter -/

/-- A run that ends like another, where the host is that of the other beside `x`. -/
def EndsBeside (x : ξ) (run : Except ε α × Journal σ) (run' : Except ε α × Journal (ξ × σ)) :
    Prop :=
  run'.1 = run.1 ∧ run'.2.host = (x, run.2.host)

/-- A parameter that is given is set to what was typed. -/
lemma emitParameter_given {text : String} {value : Value}
    (hgiven : presets.values.find? p.id = some text) (htyped : p.rule.typed? text = some value)
    (hfresh : env.contains p.id = false) :
    Bus.emitParameter [(presets.listener : Listener σ)] p env = pure (env.insert p.id value) := by
  have happly : presets.apply p env = .ok (env.insert p.id value) := by
    rw [Presets.apply, hfresh, hgiven]
    simp only [Bool.false_eq_true, if_false, ParameterRule.valueFor_of_typed htyped]
    rfl
  rw [Bus.emitParameter, Bus.emit, List.foldlM_cons]
  simp only [Presets.listener, happly]
  rfl

/-- One that is not given stays open. -/
lemma emitParameter_open (hopen : presets.values.find? p.id = none) :
    Bus.emitParameter [(presets.listener : Listener σ)] p env = pure env := by
  have happly : presets.apply p env = .ok env := by
    rw [Presets.apply, hopen]
    exact ite_self _
  rw [Bus.emitParameter, Bus.emit, List.foldlM_cons]
  simp only [Presets.listener, happly]
  rfl

/-- Presets set each parameter when it is its turn. -/
lemma seedsInTurn_presets (presets : Presets) :
    Bus.SeedsInTurn [(presets.listener : Listener σ)] := by
  intro l hl p env env' s s' hrun id hid
  obtain rfl := List.mem_singleton.1 hl
  obtain ⟨happly, _⟩ := Prod.mk.inj hrun
  have happly : presets.apply p env = .ok env' := happly
  rw [Presets.apply] at happly
  split at happly
  · cases happly
    rfl
  · split at happly
    · cases happly
      rfl
    · obtain ⟨value, _, rfl⟩ := Result.map_eq_ok.1 happly
      rw [Dict.find?_insert, if_neg hid]

section

variable {bus : Bus σ} {bus' : Bus (ξ × σ)} {prompter' : Prompter (ξ × σ)} {heard : ParameterEnv}
  {j : Journal σ} {k : Journal (ξ × σ)} {x : ξ}

/-- A parameter that listeners give a value is left at it, and nobody is asked. -/
lemma resolveNext_seeded (declared : List String) (prompter : Prompter σ) (j : Journal σ)
    (hheard : bus.emitParameter p env = pure heard) (hseeded : heard.contains p.id = true) :
    ((resolveNext declared prompter bus env p).run.run j).1 = .ok heard ∧
      ((resolveNext declared prompter bus env p).run.run j).2.host = j.host := by
  rw [resolveNext, hheard, Talk.withHost_pure, pure_bind]
  simp only [hseeded, if_true]
  exact ⟨rfl, rfl⟩

/-- Where no listener acts, what follows for the value of the rule follows for the parameter. -/
lemma EndsBeside.resolveNext
    (h : EndsBeside x ((valueOf declared prompter env p).run.run j)
      ((valueOf declared prompter' env p).run.run k))
    (hquiet : bus.emitParameter p env = pure env) (hquiet' : bus'.emitParameter p env = pure env)
    (hfresh : env.contains p.id = false) :
    EndsBeside x ((resolveNext declared prompter bus env p).run.run j)
      ((Parameters.resolveNext declared prompter' bus' env p).run.run k) := by
  obtain ⟨hresult, hhost⟩ := resolveNext_open declared prompter j hquiet hfresh
  obtain ⟨hresult', hhost'⟩ := resolveNext_open declared prompter' k hquiet' hfresh
  exact ⟨by rw [hresult, hresult', h.1], by rw [hhost, hhost', h.2]⟩

/-- An expression asks nobody. -/
lemma valueOf_compute_beside {node : Expr} (hrule : p.rule = .compute node)
    (hhost : k.host = (x, j.host)) :
    EndsBeside x ((valueOf declared prompter env p).run.run j)
      ((valueOf declared prompter' env p).run.run k) := by
  rw [valueOf, valueOf, hrule]
  simp only
  rw [Work.run_bind, Work.run_bind]
  rcases evaluate declared env p.id node with _ | value
  · exact ⟨rfl, hhost⟩
  · exact ⟨rfl, hhost⟩

/-- To resolve a question is to ask it. -/
lemma valueOf_ask {question : Question} (hrule : p.rule = .ask question) (j : Journal σ) :
    (valueOf declared prompter env p).run.run j =
      (((prompter question).run.run j.host).1.mapError (noAnswer p.id),
        { j with host := ((prompter question).run.run j.host).2 }) := by
  rw [valueOf, hrule]
  rfl

/-- A question is answered as the prompter answers it. -/
lemma valueOf_ask_beside {question : Question} (hrule : p.rule = .ask question)
    (hanswer : (prompter' question).run.run k.host =
      (((prompter question).run.run j.host).1, x, ((prompter question).run.run j.host).2)) :
    EndsBeside x ((valueOf declared prompter env p).run.run j)
      ((valueOf declared prompter' env p).run.run k) := by
  rw [valueOf_ask hrule, valueOf_ask hrule, hanswer]
  exact ⟨rfl, rfl⟩

end

/-- A step with presets is followed by one without, where the user types what is preset. -/
lemma resolveNext_typing (declared : List String) (prompter : Prompter σ) {j : Journal σ}
    {k : Journal (List (Option Value) × σ)}
    (hfits : Fits presets.values.find? (p :: items)) (hfresh : env.contains p.id = false)
    (hhost : k.host = (script presets.values.find? (p :: items), j.host)) :
    EndsBeside (script presets.values.find? items)
      ((resolveNext declared prompter [presets.listener] env p).run.run j)
      ((resolveNext declared prompter.typing [] env p).run.run k) := by
  have hquiet : Bus.emitParameter ([] : Bus (List (Option Value) × σ)) p env = pure env := rfl
  cases hgiven : presets.values.find? p.id with
  | some text =>
    obtain ⟨value, htyped⟩ := hfits p List.mem_cons_self text hgiven
    cases hrule : p.rule with
    | compute node =>
      rw [hrule] at htyped
      cases htyped
    | ask question =>
      rw [script_ask hrule, hgiven, Option.bind_some, htyped] at hhost
      obtain ⟨hresult, hleft⟩ := resolveNext_seeded declared prompter j
        (emitParameter_given hgiven htyped hfresh) (Dict.contains_insert.2 (.inl rfl))
      obtain ⟨hresult', hleft'⟩ :=
        resolveNext_open declared prompter.typing k hquiet hfresh
      rw [valueOf_ask hrule, hhost, Prompter.typing_some] at hresult' hleft'
      exact ⟨by rw [hresult, hresult']; rfl, by rw [hleft, hleft']⟩
  | none =>
    refine EndsBeside.resolveNext ?_ (emitParameter_open hgiven) hquiet hfresh
    cases hrule : p.rule with
    | compute node => exact valueOf_compute_beside hrule (script_compute hrule ▸ hhost)
    | ask question =>
      rw [script_ask hrule, hgiven, Option.bind_none] at hhost
      exact valueOf_ask_beside hrule (by rw [hhost, Prompter.typing_none])

/-- A step puts the question of its parameter when no text is given for it. -/
lemma resolveNext_recording (declared : List String) (prompter : Prompter σ) {j : Journal σ}
    {k : Journal (List Question × σ)} {asked : List Question} (hfits : Fits presets.values.find? [p])
    (hfresh : env.contains p.id = false) (hhost : k.host = (asked, j.host)) :
    EndsBeside (asked ++ openQuestions presets.values.find? [p])
      ((resolveNext declared prompter [presets.listener] env p).run.run j)
      ((resolveNext declared prompter.recording [presets.listener] env p).run.run k) := by
  cases hgiven : presets.values.find? p.id with
  | some text =>
    obtain ⟨value, htyped⟩ := hfits p List.mem_cons_self text hgiven
    obtain ⟨hresult, hleft⟩ := resolveNext_seeded declared prompter j
      (emitParameter_given hgiven htyped hfresh) (Dict.contains_insert.2 (.inl rfl))
    obtain ⟨hresult', hleft'⟩ := resolveNext_seeded declared prompter.recording k
      (emitParameter_given hgiven htyped hfresh) (Dict.contains_insert.2 (.inl rfl))
    have hnothing : openQuestions presets.values.find? [p] = [] := by
      cases hrule : p.rule with
      | compute node => exact openQuestions_compute hrule
      | ask question =>
        rw [openQuestions_ask hrule, hgiven]
        rfl
    rw [hnothing, List.append_nil]
    exact ⟨by rw [hresult, hresult'], by rw [hleft, hleft', hhost]⟩
  | none =>
    refine EndsBeside.resolveNext ?_ (emitParameter_open hgiven) (emitParameter_open hgiven) hfresh
    cases hrule : p.rule with
    | compute node =>
      rw [openQuestions_compute hrule, List.append_nil]
      exact valueOf_compute_beside hrule hhost
    | ask question =>
      rw [openQuestions_ask hrule, hgiven]
      exact valueOf_ask_beside hrule (by rw [hhost]; rfl)

/-! ## All parameters -/

section

variable {j j' : Journal σ}

/-- Parameters behind one that is resolved are as fresh as before. -/
lemma fresh_behind (hids : ((p :: items).map Parameter.id).Nodup)
    (hfresh : ∀ q ∈ p :: items, env.contains q.id = false)
    (hnext : (resolveNext declared prompter [presets.listener] env p).run.run j = (.ok env', j')) :
    ∀ q ∈ items, env'.contains q.id = false := by
  intro q hq
  rw [List.map_cons, List.nodup_cons] at hids
  have hother : q.id ≠ p.id := fun heq => hids.1 (heq ▸ List.mem_map_of_mem hq)
  rw [Dict.contains, (resolveNext_kept (seedsInTurn_presets presets) hnext).2 _ hother]
  exact hfresh q (List.mem_cons_of_mem _ hq)

/-- What fits all parameters fits those behind the first. -/
lemma Fits.tail (hfits : Fits given (p :: items)) : Fits given items :=
  fun q hq => hfits q (List.mem_cons_of_mem _ hq)

/-- A run with presets is followed by one without, where the user types what is preset. -/
lemma foldlM_typing (prompter : Prompter σ) {k : Journal (List (Option Value) × σ)}
    (hids : (items.map Parameter.id).Nodup) (hfits : Fits presets.values.find? items)
    (hfresh : ∀ q ∈ items, env.contains q.id = false)
    (hhost : k.host = (script presets.values.find? items, j.host)) :
    ((items.foldlM (resolveNext declared prompter.typing []) env).run.run k).1 =
        ((items.foldlM (resolveNext declared prompter [presets.listener]) env).run.run j).1 ∧
      ((items.foldlM (resolveNext declared prompter.typing []) env).run.run k).2.host.2 =
        ((items.foldlM (resolveNext declared prompter [presets.listener]) env).run.run j).2.host := by
  induction items generalizing env j k with
  | nil =>
    exact ⟨rfl, congrArg Prod.snd hhost⟩
  | cons p items ih =>
    obtain ⟨hresult, hleft⟩ :=
      resolveNext_typing declared prompter hfits (hfresh p List.mem_cons_self) hhost
    rw [List.foldlM_cons, List.foldlM_cons, Work.run_bind, Work.run_bind]
    rcases hnext : (resolveNext declared prompter [presets.listener] env p).run.run j with
      ⟨_ | env', j'⟩
    all_goals
      rcases hnext' : (resolveNext declared prompter.typing [] env p).run.run k with ⟨r, k'⟩
      rw [hnext, hnext'] at hresult hleft
      cases hresult
    · exact ⟨rfl, congrArg Prod.snd hleft⟩
    · exact ih (List.nodup_cons.1 hids).2 hfits.tail (fresh_behind hids hfresh hnext) hleft

/-- What is reached behind a parameter is reached through it. -/
lemma Reached.cons {front : List Parameter} {bus : Bus σ}
    (hnext : (resolveNext declared prompter bus env p).run.run j = (.ok env', j'))
    (h : Reached declared prompter bus env' items front j') :
    Reached declared prompter bus env (p :: items) (p :: front) j := by
  have hrun : ∀ items, (List.foldlM (resolveNext declared prompter bus) env (p :: items)).run.run j =
      (items.foldlM (resolveNext declared prompter bus) env').run.run j' := by
    intro items
    rw [List.foldlM_cons, Work.run_bind, hnext]
  rw [Reached] at h ⊢
  rw [hrun]
  split at h
  next => rw [h]
  next e _ =>
    obtain ⟨earlier, q, back, env₁, k, rfl, rfl, hearlier, hfails⟩ := h
    exact ⟨p :: earlier, q, back, env₁, k, rfl, rfl, (hrun earlier).trans hearlier, hfails⟩

/-- A parameter that fails is the last that is reached. -/
lemma Reached.failed {bus : Bus σ} {e : ConfigError}
    (hnext : (resolveNext declared prompter bus env p).run.run j = (.error e, j')) :
    Reached declared prompter bus env (p :: items) [p] j := by
  rw [Reached, List.foldlM_cons, Work.run_bind, hnext]
  exact ⟨[], p, items, env, j, rfl, rfl, rfl, by rw [hnext]⟩

/-- A run with presets puts the questions for which no text is given, as far as it comes. -/
lemma foldlM_recording (prompter : Prompter σ) {k : Journal (List Question × σ)}
    {asked : List Question}
    (hids : (items.map Parameter.id).Nodup) (hfits : Fits presets.values.find? items)
    (hfresh : ∀ q ∈ items, env.contains q.id = false) (hhost : k.host = (asked, j.host)) :
    ∃ front, Reached declared prompter [presets.listener] env items front j ∧
      EndsBeside (asked ++ openQuestions presets.values.find? front)
        ((items.foldlM (resolveNext declared prompter [presets.listener]) env).run.run j)
        ((items.foldlM (resolveNext declared prompter.recording [presets.listener])
          env).run.run k) := by
  -- on the parameters that are left, with the questions asked so far
  induction items generalizing env j k asked with
  | nil =>
    refine ⟨[], rfl, rfl, ?_⟩
    rw [openQuestions, List.filterMap_nil, List.append_nil]
    exact hhost
  | cons p items ih =>
    obtain ⟨hresult, hleft⟩ := resolveNext_recording declared prompter
      (fun q hq => hfits q (List.mem_singleton.1 hq ▸ List.mem_cons_self))
      (hfresh p List.mem_cons_self) hhost
    rw [List.foldlM_cons, List.foldlM_cons, Work.run_bind, Work.run_bind]
    rcases hnext : (resolveNext declared prompter [presets.listener] env p).run.run j with
      ⟨_ | env', j'⟩
    all_goals
      rcases hnext' : (resolveNext declared prompter.recording [presets.listener] env p).run.run k
        with ⟨r, k'⟩
      rw [hnext, hnext'] at hresult hleft
      cases hresult
    · exact ⟨[p], .failed hnext, rfl, hleft⟩
    · obtain ⟨front, hreached, hend⟩ :=
        ih (List.nodup_cons.1 hids).2 hfits.tail (fresh_behind hids hfresh hnext) hleft
      refine ⟨p :: front, hreached.cons hnext, ?_⟩
      rwa [← List.singleton_append, openQuestions_append, ← List.append_assoc]

end

/-- Presets are as good as typed answers.  A run of parameters with distinct ids, some of which have
a text from assignments, has the result of a run without presets in which the user types those texts
and leaves the other questions to the prompter.  The prompter ends in the same state; it is asked
only the questions for which no text is given, each once and in order, as far as the run comes. -/
theorem resolve_preset_as_typed (hids : (parameters.map Parameter.id).Nodup)
    {pairs : List (String × String)} (hpairs : ∀ pair ∈ pairs, pair.1 ≠ "" ∧ '=' ∉ pair.1.toList)
    (hfits : Fits (Presets.given pairs) parameters) (prompter : Prompter σ) (log : Array LogEntry)
    (s : σ) :
    ∃ presets, Presets.ofAssignments (pairs.map Presets.assignment) = .ok presets ∧
      let run := (resolve parameters prompter [presets.listener]).run.run ⟨log, s⟩
      let typed := (resolve parameters prompter.typing []).run.run
        ⟨log, script (Presets.given pairs) parameters, s⟩
      let recorded := (resolve parameters prompter.recording [presets.listener]).run.run ⟨log, [], s⟩
      typed.1 = run.1 ∧ typed.2.host.2 = run.2.host ∧ recorded.1 = run.1 ∧
        ∃ front, Reached (parameters.map Parameter.id) prompter [presets.listener] Dict.empty
            parameters front ⟨log, s⟩ ∧
          recorded.2.host = (openQuestions (Presets.given pairs) front, run.2.host) := by
  refine ⟨⟨Dict.ofList pairs⟩, Presets.ofAssignments_assignment hpairs, ?_⟩
  set presets : Presets := ⟨Dict.ofList pairs⟩
  have hgiven : Presets.given pairs = presets.values.find? :=
    (funext (Dict.find?_ofList pairs)).symm
  rw [hgiven] at hfits ⊢
  have hfresh : ∀ q ∈ parameters, Dict.contains (Dict.empty : ParameterEnv) q.id = false :=
    fun _ _ => rfl
  obtain ⟨hresult, hleft⟩ := foldlM_typing prompter (j := ⟨log, s⟩) (k := ⟨log, _, s⟩) hids hfits
    hfresh rfl
  obtain ⟨front, hreached, hsame, hasked⟩ := foldlM_recording prompter (j := ⟨log, s⟩)
    (k := ⟨log, [], s⟩) hids hfits hfresh rfl
  exact ⟨hresult, hleft, hsame, front, hreached, hasked⟩

/-- A prompter that answers with the number of questions before. -/
def countingPrompter : Prompter Nat := fun _ => ExceptT.mk fun n => (.ok (.text (toString n)), n + 1)

/-- Three questions and a title that is computed from one of them. -/
def coverParameters : List Parameter :=
  [⟨"$name", .ask ⟨.text, "Name", none⟩⟩, ⟨"$issue", .ask ⟨.text, "Issue", none⟩⟩,
    ⟨"$draft", .ask ⟨.confirm, "Draft", none⟩⟩,
    ⟨"$title", .compute (.condition .equal (.literal (.text "$name")) (.literal (.text "Ada"))
      (some (.text "Countess")))⟩]

/-- What is given, one name twice. -/
def coverPairs : List (String × String) :=
  [("$name", "pack"), ("$draft", "No"), ("$name", "Ada"), ("$year", "1843")]

/-- The presets give what typing them gives, and only one question is asked. -/
theorem cover_preset_as_typed :
    ∃ presets, Presets.ofAssignments ["$name=pack", "$draft=No", "$name=Ada", "$year=1843"] =
        .ok presets ∧
      ((resolve coverParameters countingPrompter.typing []).run.run
          ⟨#[], [some (.text "Ada"), none, some (.bool false)], 0⟩).1 =
        ((resolve coverParameters countingPrompter [presets.listener]).run.run ⟨#[], 0⟩).1 ∧
      ((resolve coverParameters countingPrompter.recording [presets.listener]).run.run
        ⟨#[], [], 0⟩).2.host = ([⟨.text, "Issue", none⟩], 1) := by
  have hfits : Fits (Presets.given coverPairs) coverParameters := by
    have htyped : ∀ p ∈ coverParameters, ∀ text ∈ Presets.given coverPairs p.id,
        (p.rule.typed? text).isSome = true := by decide +kernel
    exact fun p hp text htext => Option.isSome_iff_exists.1 (htyped p hp text htext)
  have hscript : script (Presets.given coverPairs) coverParameters =
      [some (.text "Ada"), none, some (.bool false)] := by decide +kernel
  have hall : ((resolve coverParameters countingPrompter.typing []).run.run
      ⟨#[], [some (.text "Ada"), none, some (.bool false)], 0⟩).1 =
      .ok (Dict.ofList [("$name", .text "Ada"), ("$issue", .text "0"), ("$draft", .bool false),
        ("$title", .text "Countess")]) := by
    decide +kernel
  have hhost : ((resolve coverParameters countingPrompter.typing []).run.run
      ⟨#[], [some (.text "Ada"), none, some (.bool false)], 0⟩).2.host.2 = 1 := by
    decide +kernel
  obtain ⟨presets, hpresets, htyped, hleft, _, front, hreached, hasked⟩ :=
    resolve_preset_as_typed (by decide) (by decide) hfits countingPrompter #[] 0
  rw [hscript] at htyped hleft
  have hfront : front = coverParameters := by
    have hrun := htyped.symm.trans hall
    rw [resolve] at hrun
    rw [Reached, hrun] at hreached
    exact hreached
  refine ⟨presets, hpresets, htyped, ?_⟩
  rw [hasked, hfront, ← hleft, hhost]
  rfl

end Parameters

end ConfigPack
