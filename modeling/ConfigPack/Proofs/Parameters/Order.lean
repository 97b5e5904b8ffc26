import ConfigPack.Proofs.Parameters.Equations
import Mathlib.Tactic.FinCases

/-!
# Orders of parameters

With no listeners, and answers that depend on the questions alone, parameters are resolved to the
one environment that solves their equations (`resolve_eq_ok_iff`).  The equations do not depend on
the order of the parameters; so every order in which expressions look only backwards gives the same
environment, or none does.
-/

namespace ConfigPack

variable {σ : Type}

/-- A prompter whose answers depend on the questions alone. -/
def Prompter.Steady (prompter : Prompter σ) : Prop :=
  ∀ question s s', ((prompter question).run.run s).1 = ((prompter question).run.run s').1

/-- The value of a rule in an environment, given an answer for each question. -/
def ParameterRule.valueIn (answer : Question → Except NoAnswer Value) (env : ParameterEnv) :
    ParameterRule → Option Value
  | .ask question => (answer question).toOption
  | .compute node =>
    (node.evaluate env (.bool true)).toOption.map fun value =>
      if value.isTruthy then value else .bool false

/-- A rule has one value where its expression has. -/
lemma ParameterRule.valueIn_congr {answer : Question → Except NoAnswer Value}
    {env env' : ParameterEnv} {rule : ParameterRule}
    (h : ∀ node, rule = .compute node →
      node.evaluate env (.bool true) = node.evaluate env' (.bool true)) :
    rule.valueIn answer env = rule.valueIn answer env' := by
  cases rule with
  | ask question => rfl
  | compute node => rw [valueIn, valueIn, h node rfl]

namespace Parameters

variable {prompter : Prompter σ} {answer : Question → Except NoAnswer Value} {p : Parameter}
  {declared : List String} {env earlier : ParameterEnv} {j k : Journal σ}
  {parameters front back : List Parameter}

/-- Expressions that mention only declared ids in front of their own. -/
def LooksBack (parameters : List Parameter) : Prop :=
  ∀ p ∈ parameters, ∀ node, p.rule = .compute node →
    ∀ id ∈ parameters.map Parameter.id, node.Mentions id → DeclaredBefore parameters p id

/-- In a list without a second parameter of one id, all that is mentioned is in front. -/
lemma LooksBack.mem_front (hback : LooksBack parameters)
    (hids : (parameters.map Parameter.id).Nodup) (hsplit : parameters = front ++ p :: back)
    {node : Expr} (hrule : p.rule = .compute node) {id : String}
    (hid : id ∈ parameters.map Parameter.id) (hmentions : node.Mentions id) :
    id ∈ front.map Parameter.id := by
  have hp : p ∈ parameters := hsplit ▸ List.mem_append_right _ List.mem_cons_self
  obtain ⟨front', back', hsplit', hbefore⟩ := hback p hp node hrule id hid hmentions
  have hnodup : (front ++ p :: back).Nodup := hsplit ▸ hids.of_map
  rw [List.nodup_append, List.nodup_cons] at hnodup
  have hfront : p ∉ front := fun hm => hnodup.2.2 p hm p List.mem_cons_self rfl
  rw [hsplit', eq_comm, List.append_cons_inj_of_notMem hfront hnodup.2.1.1] at hsplit
  rwa [hsplit.1]

/-- An environment that has the declared ids and under each the value of its rule. -/
structure Solves (parameters : List Parameter) (answer : Question → Except NoAnswer Value)
    (env : ParameterEnv) : Prop where
  keys : ∀ id, id ∈ env.keys ↔ id ∈ parameters.map Parameter.id
  value : ∀ p ∈ parameters, ∃ value, p.rule.valueIn answer env = some value ∧
    env.find? p.id = some value

/-- The equations do not depend on the order of the parameters. -/
lemma Solves.perm {parameters' : List Parameter} (hperm : parameters.Perm parameters')
    (h : Solves parameters answer env) : Solves parameters' answer env where
  keys id := (h.keys id).trans (hperm.map Parameter.id).mem_iff
  value p hp := h.value p (hperm.mem_iff.2 hp)

/-- With no listeners a parameter without a value gets that of its rule. -/
lemma resolveNext_nil {value : Value} (hmissing : earlier.find? p.id = none)
    (h : ((valueOf declared prompter earlier p).run.run j).1 = .ok value) :
    ∃ k, (resolveNext declared prompter [] earlier p).run.run j =
      (.ok (earlier.insert p.id value), k) := by
  have hquiet : Bus.emitParameter ([] : Bus σ) p earlier = pure earlier := rfl
  have hnot : earlier.contains p.id = false := by
    rw [Dict.contains, hmissing]
    rfl
  refine ⟨_, Prod.ext ?_ rfl⟩
  rw [(resolveNext_open declared prompter j hquiet hnot).1, h]
  rfl

section

variable (hanswer : ∀ question s, ((prompter question).run.run s).1 = answer question)
include hanswer

/-- A parameter gets the value of its rule when no reference of it is open. -/
lemma valueOf_ok_iff {value : Value} :
    ((valueOf declared prompter env p).run.run j).1 = .ok value ↔
      p.rule.valueIn answer env = some value ∧
        ∀ node, p.rule = .compute node →
          ∀ id ∈ declared, node.Mentions id → env.contains id = true := by
  constructor
  · intro h
    -- a parameter is asked for or computed; references are checked only before it is computed
    cases hrule : p.rule with
    | ask question =>
      rw [valueOf, hrule] at h
      refine ⟨?_, fun node hnode => by cases hnode⟩
      rw [ParameterRule.valueIn, ← hanswer question j.host, Result.toOption_eq_some]
      exact Result.mapError_eq_ok.1 h
    | compute node =>
      obtain ⟨hreferences, result, hresult, rfl⟩ := valueOf_compute hrule (Prod.ext h rfl)
      refine ⟨?_, fun _ hnode => by cases hnode; exact hreferences⟩
      rw [ParameterRule.valueIn, hresult]
      rfl
  · rintro ⟨hvalue, hreferences⟩
    cases hrule : p.rule with
    | ask question =>
      rw [hrule, ParameterRule.valueIn, ← hanswer question j.host, Result.toOption_eq_some]
        at hvalue
      rw [valueOf, hrule]
      exact Result.mapError_eq_ok.2 hvalue
    | compute node =>
      rw [hrule, ParameterRule.valueIn, Option.map_eq_some_iff] at hvalue
      obtain ⟨result, hresult, rfl⟩ := hvalue
      have hgiven : evaluate declared env p.id node = .ok result := by
        refine Result.bind_eq_ok.2 ⟨(), checkReferences_eq_ok.2 (hreferences node hrule), ?_⟩
        exact Result.mapError_eq_ok.2 (Result.toOption_eq_some.1 hresult)
      rw [valueOf, hrule]
      simp only [hgiven]
      rfl

/-- An environment to which parameters are resolved solves their equations. -/
lemma solves_of_resolve (hids : (parameters.map Parameter.id).Nodup)
    (h : ((resolve parameters prompter []).run.run j).1 = .ok env) :
    Solves parameters answer env := by
  have hbus : Bus.SeedsInTurn ([] : Bus σ) := by simp [Bus.SeedsInTurn]
  obtain ⟨j', hrun⟩ : ∃ j', (resolve parameters prompter []).run.run j = (.ok env, j') :=
    ⟨_, Prod.ext h rfl⟩
  have hkeys := resolve_keys hbus hrun
  refine ⟨hkeys, fun p hp => ?_⟩
  obtain ⟨front, back, hsplit⟩ := List.append_of_mem hp
  obtain ⟨earlier, _, _, hearlier, hvalue⟩ := resolve_at hids hbus hsplit hrun
  obtain ⟨value, k₁, k₂, hvalue, hfound⟩ := hvalue (not_seeded hids hbus fun _ => rfl)
  refine ⟨value, ?_, hfound⟩
  obtain ⟨hgiven, hreferences⟩ := (valueOf_ok_iff hanswer).1 (Prod.mk.inj hvalue).1
  rw [← hgiven]
  refine ParameterRule.valueIn_congr fun node hnode => ?_
  refine (evaluate_at _ hkeys hearlier fun id hid hmentions => ?_).symm
  by_contra hnot
  have hcontains := hreferences node hnode id hid hmentions
  rw [Dict.contains, hearlier.of_notMem hnot] at hcontains
  cases hcontains

/-- A parameter behind a front that has its values of a solution gets its own. -/
lemma resolveNext_of_solves (hids : (parameters.map Parameter.id).Nodup)
    (hback : LooksBack parameters) (h : Solves parameters answer env)
    (hsplit : parameters = front ++ p :: back) (hearlier : HasOf env front earlier) :
    ∃ next k, (resolveNext (parameters.map Parameter.id) prompter [] earlier p).run.run j =
      (.ok next, k) ∧ HasOf env (front ++ [p]) next := by
  have hp : p ∈ parameters := hsplit ▸ List.mem_append_right _ List.mem_cons_self
  obtain ⟨value, hvalue, hfound⟩ := h.value p hp
  have hown : p.id ∉ front.map Parameter.id := by
    intro hm
    rw [hsplit, List.map_append, List.map_cons, List.nodup_append] at hids
    exact hids.2.2 _ hm _ List.mem_cons_self rfl
  -- its rule looks only at the front, where the values are those of the solution
  have hgiven : p.rule.valueIn answer earlier = some value := by
    rw [← hvalue]
    refine ParameterRule.valueIn_congr fun node hrule => ?_
    exact evaluate_at _ h.keys hearlier fun id hid hm =>
      hback.mem_front hids hsplit hrule hid hm
  have hreferences : ∀ node, p.rule = .compute node → ∀ id ∈ parameters.map Parameter.id,
      node.Mentions id → earlier.contains id = true := by
    intro node hrule id hid hm
    rw [Dict.contains, hearlier.of_mem (hback.mem_front hids hsplit hrule hid hm),
      ← Dict.contains, Dict.contains_iff, h.keys]
    exact hid
  obtain ⟨k, hnext⟩ := resolveNext_nil (hearlier.of_notMem hown)
    ((valueOf_ok_iff hanswer (j := j)).2 ⟨hgiven, hreferences⟩)
  refine ⟨_, k, hnext, fun id => ?_⟩
  rw [Dict.find?_insert, hearlier]
  by_cases hid : id = p.id
  · subst hid
    simp [hfound]
  · simp [hid]

/-- What is behind a front that has its values of a solution gets the others. -/
lemma foldlM_of_solves (hids : (parameters.map Parameter.id).Nodup) (hback : LooksBack parameters)
    (h : Solves parameters answer env) (hsplit : parameters = front ++ back)
    (hearlier : HasOf env front earlier) :
    ∃ k, (back.foldlM (resolveNext (parameters.map Parameter.id) prompter []) earlier).run.run j =
      (.ok env, k) := by
  induction back generalizing front earlier j with
  | nil =>
    have hall : earlier = env := by
      apply Dict.ext_find?
      intro id
      rw [hearlier]
      split
      next => rfl
      next hnot =>
        rw [eq_comm, Dict.find?_eq_none_iff, h.keys, hsplit, List.append_nil]
        exact hnot
    exact ⟨j, by rw [hall]; rfl⟩
  | cons p back ih =>
    obtain ⟨next, k, hnext, hnow⟩ :=
      resolveNext_of_solves hanswer (j := j) hids hback h hsplit hearlier
    obtain ⟨k', hrest⟩ := @ih next k _ (hsplit.trans (List.append_cons front p back)) hnow
    refine ⟨k', ?_⟩
    rw [List.foldlM_cons]
    exact Work.run_bind_ok.2 ⟨next, k, hnext, hrest⟩

/-- Where expressions look backwards, parameters are resolved to an environment exactly when it
solves their equations. -/
lemma resolve_eq_ok_iff (hids : (parameters.map Parameter.id).Nodup)
    (hback : LooksBack parameters) :
    ((resolve parameters prompter []).run.run j).1 = .ok env ↔ Solves parameters answer env := by
  constructor
  · exact solves_of_resolve hanswer hids
  · intro h
    have hnothing : HasOf env [] Dict.empty := fun _ => rfl
    obtain ⟨k, hrun⟩ := foldlM_of_solves hanswer (j := j) hids hback h rfl hnothing
    exact (Prod.mk.inj hrun).1

end

/-- With no listeners and answers that depend on the questions alone, two orders of parameters in
which expressions look backwards both fail, or both give one environment. -/
theorem resolve_perm {parameters' : List Parameter} (hperm : parameters.Perm parameters')
    (hids : (parameters.map Parameter.id).Nodup) (hback : LooksBack parameters)
    (hback' : LooksBack parameters') (hprompter : prompter.Steady) (j k : Journal σ) :
    (∃ e e', ((resolve parameters prompter []).run.run j).1 = .error e ∧
        ((resolve parameters' prompter []).run.run k).1 = .error e') ∨
      ∃ env, ((resolve parameters prompter []).run.run j).1 = .ok env ∧
        ((resolve parameters' prompter []).run.run k).1 = .ok env := by
  have hanswer : ∀ question s,
      ((prompter question).run.run s).1 = ((prompter question).run.run j.host).1 :=
    fun question s => hprompter question s j.host
  have hids' : (parameters'.map Parameter.id).Nodup := (hperm.map _).nodup_iff.1 hids
  have hsame : ∀ env, ((resolve parameters prompter []).run.run j).1 = .ok env ↔
      ((resolve parameters' prompter []).run.run k).1 = .ok env := by
    intro env
    rw [resolve_eq_ok_iff hanswer hids hback, resolve_eq_ok_iff hanswer hids' hback']
    exact ⟨Solves.perm hperm, Solves.perm hperm.symm⟩
  cases hfirst : ((resolve parameters prompter []).run.run j).1 with
  | ok env => exact .inr ⟨env, rfl, (hsame env).1 hfirst⟩
  | error e =>
    cases hsecond : ((resolve parameters' prompter []).run.run k).1 with
    | ok env =>
      rw [(hsame env).2 hsecond] at hfirst
      cases hfirst
    | error e' => exact .inl ⟨e, e', rfl, rfl⟩

/-- A question with a default. -/
def nameParameter : Parameter := ⟨"$name", .ask ⟨.text, "Name", some (.text "pack")⟩⟩

/-- A parameter that is computed from two others. -/
def badgeParameter : Parameter :=
  ⟨"$badge", .compute (.condition .equal (.literal (.text "$name")) (.literal (.text "pack"))
    (some (.text "official")))⟩

/-- What it mentions is not declared. -/
def stateParameter : Parameter :=
  ⟨"$state", .compute (.either (.literal (.text "draft")) (.literal (.bool true)))⟩

/-- A parameter on which another one builds may come before or behind the question. -/
theorem state_comes_first_or_last :
    ∃ env,
      ((resolve [nameParameter, badgeParameter, stateParameter] Prompter.defaults []).run.run
        (⟨#[], ()⟩ : Journal Unit)).1 = .ok env ∧
      ((resolve [stateParameter, nameParameter, badgeParameter] Prompter.defaults []).run.run
        (⟨#[], ()⟩ : Journal Unit)).1 = .ok env ∧
      env.find? "$badge" = some (.text "official") := by
  have hbadge : ∀ id, Expr.Mentions
      (.condition .equal (.literal (.text "$name")) (.literal (.text "pack"))
        (some (.text "official"))) id → id ∈ ["$name", "$badge", "$state"] → id = "$name" := by
    intro id hm hid
    have htexts := Expr.mem_literalTexts.2 hm
    fin_cases hid
    · rfl
    all_goals exact absurd htexts (by decide)
  have hstate : ∀ id, Expr.Mentions (.either (.literal (.text "draft")) (.literal (.bool true))) id →
      id ∉ ["$name", "$badge", "$state"] := by
    intro id hm hid
    have htexts := Expr.mem_literalTexts.2 hm
    fin_cases hid
    all_goals exact absurd htexts (by decide)
  have hlast : LooksBack [nameParameter, badgeParameter, stateParameter] := by
    intro p hp node hrule id hid hm
    fin_cases hp
    · cases hrule
    · cases hrule
      obtain rfl := hbadge id hm hid
      exact ⟨[nameParameter], [stateParameter], rfl, by decide⟩
    · cases hrule
      exact absurd hid (hstate id hm)
  have hfirst : LooksBack [stateParameter, nameParameter, badgeParameter] := by
    intro p hp node hrule id hid hm
    have hid' : id ∈ ["$name", "$badge", "$state"] := by
      fin_cases hid <;> decide
    fin_cases hp
    · cases hrule
      exact absurd hid' (hstate id hm)
    · cases hrule
    · cases hrule
      obtain rfl := hbadge id hm hid'
      exact ⟨[stateParameter, nameParameter], [], rfl, by decide⟩
  have hgiven : ((resolve [nameParameter, badgeParameter, stateParameter] Prompter.defaults
      []).run.run (⟨#[], ()⟩ : Journal Unit)).1.toOption.map (fun env => env.find? "$badge") =
      some (some (.text "official")) := by
    decide +kernel
  have hsteady : (Prompter.defaults : Prompter Unit).Steady := fun _ _ _ => rfl
  obtain ⟨e, _, he, _⟩ | ⟨env, hrun, hrun'⟩ :=
    resolve_perm (by decide) (by decide) hlast hfirst hsteady (⟨#[], ()⟩ : Journal Unit)
      ⟨#[], ()⟩
  · rw [he] at hgiven
    cases hgiven
  · rw [hrun] at hgiven
    exact ⟨env, hrun, hrun', Option.some.inj hgiven⟩

end Parameters

end ConfigPack
