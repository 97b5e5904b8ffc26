import ConfigPack.Parameters
import ConfigPack.Proofs.Listeners
import ConfigPack.Proofs.Mentions

/-!
# Equations of parameters

Parameters are resolved in an environment that grows.  What is added later has other ids, and an
expression mentions only parameters in front of its own; so the finished environment gives every
expression the value that it had when it was evaluated, and the environment solves the equations
that a manifest declares (`resolve_solves`).
-/

namespace ConfigPack

variable {σ : Type} {bus : Bus σ} {env env' : ParameterEnv}

/-- Listeners that touch no parameter but the one that is being resolved. -/
def Bus.SeedsInTurn (bus : Bus σ) : Prop :=
  ∀ l ∈ bus, ∀ p env env' s s', (l.onParameter p env).run.run s = (.ok env', s') →
    ∀ id, id ≠ p.id → env'.find? id = env.find? id

/-- What is heard about one parameter changes no other. -/
lemma Bus.SeedsInTurn.emitParameter (hbus : bus.SeedsInTurn) {p : Parameter} {s s' : σ}
    (h : (bus.emitParameter p env).run.run s = (.ok env', s')) {id : String} (hid : id ≠ p.id) :
    env'.find? id = env.find? id := by
  refine Bus.emit_related (R := fun a b : ParameterEnv => b.find? id = a.find? id)
    (fun _ => rfl) (fun _ _ _ hab hbc => hbc.trans hab) (fun l hl a b s s' hrun => ?_) h
  exact hbus l hl p a b s s' hrun id hid

namespace Parameters

variable {declared : List String} {prompter : Prompter σ} {p : Parameter} {j j' : Journal σ}
  {parameters front back : List Parameter}

/-! ## One parameter -/

/-- References are in order when every declared id that is mentioned has a value. -/
lemma checkReferences_eq_ok {node : Expr} {owner : String} :
    checkReferences node owner declared env = .ok () ↔
      ∀ id ∈ declared, node.Mentions id → env.contains id = true := by
  rw [checkReferences]
  split
  next reference hfound =>
    constructor
    · intro h
      cases h
    · intro h
      have hmentioned := Expr.mem_literalTexts.1 (List.mem_of_find?_eq_some hfound)
      have hmissing := List.find?_some hfound
      simp only [Bool.and_eq_true, List.contains_iff_mem, Bool.not_eq_true'] at hmissing
      rw [h reference hmissing.1 hmentioned] at hmissing
      cases hmissing.2
  next hnone =>
    rw [List.find?_eq_none] at hnone
    refine ⟨fun _ id hid hmentions => ?_, fun _ => rfl⟩
    have hfine := hnone id (Expr.mem_literalTexts.2 hmentions)
    simpa [hid] using hfine

/-- An expression gives its value, false instead of one that is not truthy, when its references are
in order. -/
lemma valueOf_compute {node : Expr} {value : Value} (hrule : p.rule = .compute node)
    (h : (valueOf declared prompter env p).run.run j = (.ok value, j')) :
    (∀ id ∈ declared, node.Mentions id → env.contains id = true) ∧
      ∃ result, node.evaluate env (.bool true) = .ok result ∧
        value = if result.isTruthy then result else .bool false := by
  rw [valueOf, hrule] at h
  obtain ⟨result, j₁, hresult, h⟩ := Work.run_bind_ok.1 h
  cases h
  obtain ⟨_, hcheck, hevaluate⟩ := Result.bind_eq_ok.1 (Prod.mk.inj hresult).1
  exact ⟨checkReferences_eq_ok.1 hcheck, result, Result.mapError_eq_ok.1 hevaluate, rfl⟩

/-- A parameter has the value that listeners gave it, or that of its rule. -/
lemma resolveNext_ok (h : (resolveNext declared prompter bus env p).run.run j = (.ok env', j')) :
    ∃ heard s, (bus.emitParameter p env).run.run j.host = (.ok heard, s) ∧
      (heard.contains p.id = true ∧ env' = heard ∨
        heard.contains p.id = false ∧ ∃ value k k',
          (valueOf declared prompter heard p).run.run k = (.ok value, k') ∧
            env' = heard.insert p.id value) := by
  obtain ⟨heard, j₁, hheard, h⟩ := Work.run_bind_ok.1 h
  obtain ⟨hresult, _⟩ := Prod.mk.inj hheard
  refine ⟨heard, _, Prod.ext (Result.mapError_eq_ok.1 hresult) rfl, ?_⟩
  split at h
  next hseeded =>
    obtain ⟨_, _, _, h⟩ := Work.run_bind_ok.1 h
    cases h
    exact .inl ⟨hseeded, rfl⟩
  next hmissing =>
    obtain ⟨value, k', hvalue, h⟩ := Work.run_bind_ok.1 h
    obtain ⟨_, _, _, h⟩ := Work.run_bind_ok.1 h
    cases h
    exact .inr ⟨by simpa using hmissing, value, j₁, k', hvalue, rfl⟩

/-- A parameter that listeners leave open gets the value of its rule. -/
lemma resolveNext_open (declared : List String) (prompter : Prompter σ) (j : Journal σ)
    (hquiet : bus.emitParameter p env = pure env) (hfresh : env.contains p.id = false) :
    ((resolveNext declared prompter bus env p).run.run j).1 =
        ((valueOf declared prompter env p).run.run j).1.map (env.insert p.id) ∧
      ((resolveNext declared prompter bus env p).run.run j).2.host =
        ((valueOf declared prompter env p).run.run j).2.host := by
  rw [resolveNext, hquiet, Talk.withHost_pure, pure_bind]
  simp only [hfresh, Bool.false_eq_true, if_false]
  rw [Work.run_bind]
  rcases (valueOf declared prompter env p).run.run j with ⟨_ | value, k⟩
  · exact ⟨rfl, rfl⟩
  · exact ⟨rfl, rfl⟩

/-- After its step a parameter has a value, and all others have what they had. -/
lemma resolveNext_kept (hbus : bus.SeedsInTurn)
    (h : (resolveNext declared prompter bus env p).run.run j = (.ok env', j')) :
    env'.contains p.id = true ∧ ∀ id, id ≠ p.id → env'.find? id = env.find? id := by
  obtain ⟨heard, s, hheard, ⟨hseeded, rfl⟩ | ⟨_, value, _, _, _, rfl⟩⟩ := resolveNext_ok h
  · exact ⟨hseeded, fun id hid => hbus.emitParameter hheard hid⟩
  · refine ⟨Dict.contains_insert.2 (.inl rfl), fun id hid => ?_⟩
    rw [Dict.find?_insert, if_neg hid, hbus.emitParameter hheard hid]

/-! ## All parameters -/

/-- Resolving parameters gives a value to each of them and touches no other id. -/
lemma foldlM_resolveNext (hbus : bus.SeedsInTurn) {items : List Parameter}
    (h : (items.foldlM (resolveNext declared prompter bus) env).run.run j = (.ok env', j')) :
    (∀ id ∈ items.map Parameter.id, env'.contains id = true) ∧
      ∀ id, id ∉ items.map Parameter.id → env'.find? id = env.find? id := by
  induction items generalizing env j with
  | nil =>
    cases h
    exact ⟨by simp, fun _ _ => rfl⟩
  | cons p items ih =>
    rw [List.foldlM_cons] at h
    obtain ⟨env₁, j₁, hnext, hrest⟩ := Work.run_bind_ok.1 h
    obtain ⟨hhere, hkept⟩ := resolveNext_kept hbus hnext
    obtain ⟨hbehind, hothers⟩ := ih hrest
    rw [List.map_cons]
    constructor
    · intro id hid
      by_cases hlater : id ∈ items.map Parameter.id
      · exact hbehind id hlater
      · obtain rfl : id = p.id := by simpa [hlater] using hid
        rw [Dict.contains, hothers _ hlater]
        exact hhere
    · intro id hid
      rw [List.mem_cons, not_or] at hid
      rw [hothers id hid.2, hkept id hid.1]

/-- The parameters at the front of a list, resolved in order. -/
def resolveFront (parameters : List Parameter) (prompter : Prompter σ) (bus : Bus σ)
    (front : List Parameter) : Talk σ ConfigError ParameterEnv :=
  front.foldlM (resolveNext (parameters.map Parameter.id) prompter bus) Dict.empty

/-- When the turn of a parameter comes, listeners give it a value. -/
def Seeded (parameters : List Parameter) (prompter : Prompter σ) (bus : Bus σ) (j : Journal σ)
    (p : Parameter) : Prop :=
  ∃ front back earlier k heard s, parameters = front ++ p :: back ∧
    (resolveFront parameters prompter bus front).run.run j = (.ok earlier, k) ∧
    (bus.emitParameter p earlier).run.run k.host = (.ok heard, s) ∧ heard.contains p.id = true

/-- An environment that has the values of another for some parameters, and no more. -/
def HasOf (env : ParameterEnv) (front : List Parameter) (earlier : ParameterEnv) : Prop :=
  ∀ id, earlier.find? id = if id ∈ front.map Parameter.id then env.find? id else none

/-- What is resolved early is as it is in the end. -/
lemma HasOf.of_mem {earlier : ParameterEnv} (h : HasOf env front earlier) {id : String}
    (hid : id ∈ front.map Parameter.id) : earlier.find? id = env.find? id := by
  rw [h, if_pos hid]

/-- Nothing else has a value then. -/
lemma HasOf.of_notMem {earlier : ParameterEnv} (h : HasOf env front earlier) {id : String}
    (hid : id ∉ front.map Parameter.id) : earlier.find? id = none := by
  rw [h, if_neg hid]

/-- An id is declared strictly before a parameter. -/
def DeclaredBefore (parameters : List Parameter) (p : Parameter) (id : String) : Prop :=
  ∃ front back, parameters = front ++ p :: back ∧ id ∈ front.map Parameter.id

/-- In the end the parameters are those that are declared. -/
lemma resolve_keys (hbus : bus.SeedsInTurn)
    (h : (resolve parameters prompter bus).run.run j = (.ok env, j')) (id : String) :
    id ∈ env.keys ↔ id ∈ parameters.map Parameter.id := by
  obtain ⟨hall, hothers⟩ := foldlM_resolveNext hbus h
  constructor
  · intro hkey
    by_contra hid
    exact Dict.find?_eq_none_iff.1 ((hothers id hid).trans rfl) hkey
  · intro hid
    exact Dict.contains_iff.1 (hall id hid)

/-- What a parameter meets when its turn comes, and what becomes of it in the end.  One that is not
seeded has the value of its rule over the parameters in front of it. -/
lemma resolve_at (hids : (parameters.map Parameter.id).Nodup) (hbus : bus.SeedsInTurn)
    (hsplit : parameters = front ++ p :: back)
    (h : (resolve parameters prompter bus).run.run j = (.ok env, j')) :
    ∃ earlier k, (resolveFront parameters prompter bus front).run.run j = (.ok earlier, k) ∧
      HasOf env front earlier ∧
      (¬ Seeded parameters prompter bus j p → ∃ value k₁ k₂,
        (valueOf (parameters.map Parameter.id) prompter earlier p).run.run k₁ = (.ok value, k₂) ∧
          env.find? p.id = some value) := by
  have hrun : (resolveFront parameters prompter bus parameters).run.run j = (.ok env, j') := h
  rw [resolveFront, hsplit, List.foldlM_append, ← hsplit] at hrun
  obtain ⟨earlier, k, hfront, hrun⟩ := Work.run_bind_ok.1 hrun
  rw [List.foldlM_cons] at hrun
  obtain ⟨next, k', hnext, hback⟩ := Work.run_bind_ok.1 hrun
  obtain ⟨_, hearlier⟩ := foldlM_resolveNext hbus hfront
  obtain ⟨_, hkept⟩ := resolveNext_kept hbus hnext
  obtain ⟨_, hlater⟩ := foldlM_resolveNext hbus hback
  -- the id of the parameter and those in front of it come up only once
  rw [hsplit, List.map_append, List.map_cons, List.nodup_append, List.nodup_cons] at hids
  obtain ⟨_, ⟨hown, _⟩, hdisjoint⟩ := hids
  refine ⟨earlier, k, hfront, fun id => ?_, fun hseeded => ?_⟩
  · split
    next hid =>
      have hother : id ≠ p.id := hdisjoint id hid p.id List.mem_cons_self
      have hbehind : id ∉ back.map Parameter.id := fun hm =>
        hdisjoint id hid id (List.mem_cons_of_mem _ hm) rfl
      rw [hlater id hbehind, hkept id hother]
    next hid => exact hearlier id hid
  · obtain ⟨heard, s, hheard, ⟨hcontains, _⟩ | ⟨hmissing, value, k₁, k₂, hvalue, rfl⟩⟩ :=
      resolveNext_ok hnext
    · exact absurd ⟨front, back, earlier, k, heard, s, hsplit, hfront, hheard, hcontains⟩ hseeded
    -- the listeners have left everything as it was
    have hsame : heard = earlier := by
      apply Dict.ext_find?
      intro id
      by_cases hid : id = p.id
      · subst hid
        have hnot : p.id ∉ front.map Parameter.id := fun hm =>
          hdisjoint _ hm _ List.mem_cons_self rfl
        rw [hearlier _ hnot]
        simpa [Dict.contains, Dict.empty, Dict.find?] using hmissing
      · exact hbus.emitParameter hheard hid
    subst hsame
    refine ⟨value, k₁, k₂, hvalue, ?_⟩
    rw [hlater _ hown, Dict.find?_insert, if_pos rfl]

/-- Over the parameters in front of it an expression has the value that it has in the end. -/
lemma evaluate_at {earlier : ParameterEnv} {node : Expr} (fallback : Value)
    (hkeys : ∀ id, id ∈ env.keys ↔ id ∈ parameters.map Parameter.id)
    (hearlier : HasOf env front earlier)
    (hmentions : ∀ id ∈ parameters.map Parameter.id, node.Mentions id →
      id ∈ front.map Parameter.id) :
    node.evaluate earlier fallback = node.evaluate env fallback := by
  refine Expr.evaluate_congr fallback fun id hid => ?_
  by_cases hmem : id ∈ front.map Parameter.id
  · exact hearlier.of_mem hmem
  · have hundeclared : id ∉ env.keys := fun hkey => hmem (hmentions id ((hkeys id).1 hkey) hid)
    rw [hearlier.of_notMem hmem, Dict.find?_eq_none_iff.2 hundeclared]

/-- A parameter whose listeners leave everything as it is, is not seeded. -/
lemma not_seeded (hids : (parameters.map Parameter.id).Nodup) (hbus : bus.SeedsInTurn)
    (hquiet : ∀ env, bus.emitParameter p env = pure env) :
    ¬ Seeded parameters prompter bus j p := by
  rintro ⟨front, back, earlier, k, heard, s, hsplit, hfront, hheard, hcontains⟩
  rw [hquiet] at hheard
  cases hheard
  rw [hsplit, List.map_append, List.map_cons, List.nodup_append] at hids
  have hnot : p.id ∉ front.map Parameter.id := fun hm =>
    hids.2.2 _ hm _ List.mem_cons_self rfl
  rw [Dict.contains, (foldlM_resolveNext hbus hfront).2 _ hnot] at hcontains
  cases hcontains

/-- With listeners that seed parameters only in their turn, the ids of the environment are the
declared ones.  Every expression that was not seeded mentions only declared ids in front of it, has
in the finished environment the value under its id, and has the same value over the parameters in
front of it. -/
theorem resolve_solves (hids : (parameters.map Parameter.id).Nodup) (hbus : bus.SeedsInTurn)
    (h : (resolve parameters prompter bus).run.run j = (.ok env, j')) :
    (∀ id, id ∈ env.keys ↔ id ∈ parameters.map Parameter.id) ∧
      ∀ p ∈ parameters, ∀ node, p.rule = .compute node → ¬ Seeded parameters prompter bus j p →
        (∃ value, node.evaluate env (.bool true) = .ok value ∧
          env.find? p.id = some (if value.isTruthy then value else .bool false)) ∧
        (∀ id ∈ parameters.map Parameter.id, node.Mentions id →
          DeclaredBefore parameters p id) ∧
        ∀ front back earlier k, parameters = front ++ p :: back →
          (resolveFront parameters prompter bus front).run.run j = (.ok earlier, k) →
          node.evaluate earlier (.bool true) = node.evaluate env (.bool true) := by
  have hkeys := resolve_keys hbus h
  refine ⟨hkeys, fun p hp node hrule hseeded => ?_⟩
  -- all is known about the parameter at any of its places in the list
  have hat : ∀ {front back}, parameters = front ++ p :: back → ∃ earlier k result,
      (resolveFront parameters prompter bus front).run.run j = (.ok earlier, k) ∧
      (∀ id ∈ parameters.map Parameter.id, node.Mentions id → id ∈ front.map Parameter.id) ∧
      node.evaluate earlier (.bool true) = .ok result ∧
      node.evaluate earlier (.bool true) = node.evaluate env (.bool true) ∧
      env.find? p.id = some (if result.isTruthy then result else .bool false) := by
    intro front back hsplit
    obtain ⟨earlier, k, hfront, hearlier, hvalue⟩ := resolve_at hids hbus hsplit h
    obtain ⟨value, k₁, k₂, hvalue, hfound⟩ := hvalue hseeded
    obtain ⟨hreferences, result, hresult, rfl⟩ := valueOf_compute hrule hvalue
    have hmentions : ∀ id ∈ parameters.map Parameter.id, node.Mentions id →
        id ∈ front.map Parameter.id := by
      intro id hid hmentions
      by_contra hnot
      have hcontains := hreferences id hid hmentions
      rw [Dict.contains, hearlier.of_notMem hnot] at hcontains
      cases hcontains
    exact ⟨earlier, k, result, hfront, hmentions, hresult,
      evaluate_at _ hkeys hearlier hmentions, hfound⟩
  obtain ⟨front, back, hsplit⟩ := List.append_of_mem hp
  obtain ⟨earlier, k, result, hfront, hmentions, hresult, hsame, hfound⟩ := hat hsplit
  refine ⟨⟨result, hsame ▸ hresult, hfound⟩, fun id hid hm => ?_, ?_⟩
  · exact ⟨front, back, hsplit, hmentions id hid hm⟩
  · intro front' back' earlier' k' hsplit' hfront'
    obtain ⟨_, _, _, hagain, _, _, hsame', _⟩ := hat hsplit'
    rw [hfront'] at hagain
    cases hagain
    exact hsame'

/-- A listener that knows the license. -/
def licenseListener : Listener Unit where
  onParameter p env :=
    if p.id = "$license" then pure (env.insert p.id (.text "MIT")) else pure env

/-- A choice between a license and a name. -/
def noticeNode : Expr :=
  .either
    (.nested (.condition .equal (.literal (.text "$license")) (.literal (.text "GPL")) none))
    (.literal (.text "$name"))

/-- The license mentions what is declared behind it, which nobody asks when it is seeded. -/
def noticeParameters : List Parameter :=
  [⟨"$license", .compute (.either (.literal (.text "$name")) (.literal (.text "none")))⟩,
   ⟨"$name", .ask ⟨.text, "Name", some (.text "pack")⟩⟩,
   ⟨"$notice", .compute noticeNode⟩]

/-- A notice is computed from the license that a listener gives. -/
theorem notice_is_solved :
    ∃ env j', (resolve noticeParameters Prompter.defaults [licenseListener]).run.run
        (⟨#[], ()⟩ : Journal Unit) = (.ok env, j') ∧
      env.find? "$license" = some (.text "MIT") ∧
      noticeNode.evaluate env (.bool true) = .ok (.text "pack") ∧
      env.find? "$notice" = some (.text "pack") ∧
      DeclaredBefore noticeParameters ⟨"$notice", .compute noticeNode⟩ "$license" := by
  have hids : (noticeParameters.map Parameter.id).Nodup := by decide
  have hbus : Bus.SeedsInTurn [licenseListener] := by
    intro l hl p env env' s s' h id hid
    obtain rfl := List.mem_singleton.1 hl
    by_cases hp : p.id = "$license"
    · simp only [licenseListener, if_pos hp] at h
      cases h
      rw [Dict.find?_insert, if_neg hid]
    · simp only [licenseListener, if_neg hp] at h
      cases h
      rfl
  have hgiven : ((resolve noticeParameters Prompter.defaults [licenseListener]).run.run
      (⟨#[], ()⟩ : Journal Unit)).1.toOption.map (fun env =>
        (env.find? "$license", env.find? "$notice")) =
      some (some (.text "MIT"), some (.text "pack")) := by
    decide +kernel
  rcases hrun : (resolve noticeParameters Prompter.defaults [licenseListener]).run.run
    (⟨#[], ()⟩ : Journal Unit) with ⟨e | env, j'⟩
  · rw [hrun] at hgiven
    cases hgiven
  rw [hrun] at hgiven
  obtain ⟨hlicense, hnotice⟩ := Prod.mk.inj (Option.some.inj hgiven)
  have hnot : ¬ Seeded noticeParameters Prompter.defaults [licenseListener] ⟨#[], ()⟩
      ⟨"$notice", .compute noticeNode⟩ :=
    not_seeded hids hbus fun _ => rfl
  obtain ⟨⟨value, hvalue, hfound⟩, hbefore, _⟩ :=
    (resolve_solves hids hbus hrun).2 ⟨"$notice", .compute noticeNode⟩ (by simp [noticeParameters])
      noticeNode rfl hnot
  refine ⟨env, j', rfl, hlicense, ?_, hnotice, hbefore "$license" (by decide) ?_⟩
  · rw [hnotice] at hfound
    rw [hvalue]
    split at hfound
    · exact congrArg Except.ok (Option.some.inj hfound).symm
    · cases hfound
  · exact .eitherLeft (.nested (.conditionLeft .literal))

end Parameters

end ConfigPack
