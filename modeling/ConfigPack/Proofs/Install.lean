import ConfigPack.Install
import ConfigPack.Proofs.Assembly.Phases

/-!
# Failures of an installation

Parameters, sections and fuels are resolved before the assembly begins, and an assembly writes only
after it has chosen and rendered everything.  So an installation that fails with anything but a
failure to write has left all files as they were.
-/

namespace ConfigPack

variable {σ : Type}

/-- Whether an assembly fails so only when it is already writing. -/
def AssemblyError.isInWriting : AssemblyError → Bool
  | .output _ => true
  | .escapes _ => true
  | _ => false

/-- Whether an operation fails so only when files are already written to the output directory. -/
def Failure.isInWriting : Failure → Bool
  | .output _ => true
  | .assembly error => error.isInWriting
  | _ => false

namespace Assembly

/-- A candidate that cannot be written fails in writing. -/
lemma writeOne_error {settings : AssemblySettings} {bus : Bus σ} {item : Job × ByteArray}
    {e : AssemblyError} {w w' : World σ}
    (h : (writeOne settings bus item).exec w = (.error e, w')) : e.isInWriting = true := by
  rcases Work.exec_bind_error.1 h with h | ⟨path, w₁, _, h⟩
  · simp only [Work.exec_liftM, Prod.mk.injEq, destination] at h
    obtain ⟨h, _⟩ := h
    split at h
    · cases h
    · cases h
      rfl
  rcases Work.exec_bind_error.1 h with h | ⟨written, w₂, _, h⟩
  · rw [Work.exec_within, Prod.mk.injEq, Result.mapError_eq_error] at h
    obtain ⟨⟨failure, _, rfl⟩, _⟩ := h
    rfl
  · rcases Work.exec_bind_error.1 h with h | ⟨_, _, _, h⟩
    · cases h
    · cases h

/-- An assembly that fails before it writes leaves the files as they are. -/
lemma run_error {environment : Environment} {settings : AssemblySettings} {bus : Bus σ}
    {e : AssemblyError} {w w' : World σ} (he : e.isInWriting = false)
    (h : (run environment settings bus).exec w = (.error e, w')) : w'.tree = w.tree := by
  rcases run_phases h with ⟨hsame, _⟩ | ⟨texts, written, w₁, w₂, _, _, _, hwrite, _, hfail⟩
  · exact hsame
  · rw [hfail e rfl] at hwrite
    obtain ⟨item, _, before, after, hone⟩ := Work.exec_mapM_error hwrite
    rw [writeOne_error hone] at he
    cases he

end Assembly

namespace Install

/-- To resolve a manifest changes no file. -/
lemma resolve_still (manifest : Manifest) (source : FileTree → Fuel.Source)
    (prompter : Prompter σ) (bus : Bus σ) : Work.Still (resolve manifest source prompter bus) := by
  refine .bind (.log _ _) fun _ => .bind (.talk _ _) fun parameters => ?_
  refine .bind (.log _ _) fun _ => .bind (.log _ _) fun _ => ?_
  refine .bind (.talk _ _) fun environment => .bind (.look _ _) fun fueled => ?_
  exact .pure _

/-- An installation that does not fail to write leaves the files as they are. -/
lemma runFrom_error {manifest : Manifest} {source : FileTree → Fuel.Source}
    {settings : AssemblySettings} {prompter : Prompter σ} {bus : Bus σ} {e : Failure}
    {w w' : World σ} (he : ∀ error, e = .assembly error → error.isInWriting = false)
    (h : (runFrom manifest source settings prompter bus).exec w = (.error e, w')) :
    w'.tree = w.tree := by
  rcases Work.exec_bind_error.1 h with h | ⟨⟨parameters, environment⟩, w₁, hresolve, h⟩
  · exact (resolve_still _ _ _ _).tree h
  have h₁ := (resolve_still _ _ _ _).tree hresolve
  rcases Work.exec_bind_error.1 h with h | ⟨_, w₂, hlog, h⟩
  · cases h
  have h₂ := (Work.Still.log _ _).tree hlog
  rcases Work.exec_bind_error.1 h with h | ⟨report, w₃, _, h⟩
  · rw [Work.exec_within, Prod.mk.injEq, Result.mapError_eq_error] at h
    obtain ⟨⟨error, herror, rfl⟩, htree⟩ := h
    rw [Assembly.run_error (he error rfl) (Prod.ext herror htree), h₂, h₁]
  · rcases Work.exec_bind_error.1 h with h | ⟨_, _, _, h⟩
    · cases h
    · cases h

end Install

end ConfigPack
