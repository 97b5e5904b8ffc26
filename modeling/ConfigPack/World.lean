import ConfigPack.FileTree.Replace
import ConfigPack.Journal

/-!
# Worlds

A computation that works on files keeps a world: the file tree as it stands, the journal, and what
chance will decide.  All are kept also when the computation fails, so what was done before a failure
stays done.
-/

namespace ConfigPack

/-- What chance decides in a run, one stream for each kind of decision with the next one in
front. -/
structure Chances where
  /-- Which of several errors is reported. -/
  reports : Nat → Nat
  /-- What befalls a file that is replaced. -/
  writes : Nat → WriteChance

namespace Chances

/-- Chances under which the system refuses nothing for reasons of its own. -/
def calm : Chances := ⟨fun _ => 0, fun _ => default⟩

/-- The chances after an error was chosen. -/
def afterReport (chances : Chances) : Chances :=
  { chances with reports := fun n => chances.reports (n + 1) }

/-- The chances after a file was replaced. -/
def afterWrite (chances : Chances) : Chances :=
  { chances with writes := fun n => chances.writes (n + 1) }

end Chances

/-- The journal, the file tree and the chances. -/
structure World (σ : Type) where
  journal : Journal σ
  tree : FileTree
  chances : Chances

/-- A computation on a world. -/
abbrev Work (σ ε : Type) := ExceptT ε (StateM (World σ))

namespace Work

variable {σ ε α : Type}

/-- A computation that leaves the file tree alone. -/
def talk {δ : Type} (wrap : δ → ε) (action : Talk σ δ α) : Work σ ε α :=
  ExceptT.mk fun w =>
    let (result, journal) := action.run.run w.journal
    (result.mapError wrap, { w with journal })

/-- Log a line. -/
def log (level : LogLevel) (text : String) : Work σ ε Unit := talk id (Talk.log level text)

/-- Record what became of a file. -/
def record (path : String) (outcome : FileOutcome) (reason : Option String) : Work σ ε Unit :=
  talk id (Talk.record (.file ⟨path, outcome, reason⟩))

/-- Let those who answer and listen act; `wrap` names what their failure means here. -/
def withHost {δ : Type} (wrap : δ → ε) (action : ExceptT δ (StateM σ) α) : Work σ ε α :=
  talk id (Talk.withHost wrap action)

/-- Look at the file tree. -/
def look {δ : Type} (wrap : δ → ε) (view : FileTree → Except δ α) : Work σ ε α := do
  liftM ((view (← get).tree).mapError wrap)

/-- Change the file tree, unless the change is refused. -/
def change {δ : Type} (wrap : δ → ε) (step : FileTree → Except δ FileTree) : Work σ ε Unit := do
  let tree ← look wrap step
  modify fun w => { w with tree }

/-- Change the file tree by a step that may be refused half done. -/
def changePartly {δ : Type} (wrap : δ → ε) (step : FileTree → FileTree × Except δ Unit) :
    Work σ ε Unit :=
  ExceptT.mk fun w =>
    let (tree, result) := step w.tree
    (result.mapError wrap, { w with tree })

/-- Replace the content of a path as chance has it. -/
def replace (wrap : IoError → ε) (path : String) (data : ByteArray) : Work σ ε Unit :=
  ExceptT.mk fun w =>
    let (tree, result) := w.tree.replace (w.chances.writes 0) path data
    (result.mapError wrap, { w with tree, chances := w.chances.afterWrite })

/-- The number by which chance chooses among several errors. -/
def drawReport : Work σ ε Nat :=
  ExceptT.mk fun w => (.ok (w.chances.reports 0), { w with chances := w.chances.afterReport })

/-- A computation whose failures get another name. -/
def within {δ : Type} (wrap : δ → ε) (action : Work σ δ α) : Work σ ε α :=
  ExceptT.mk fun w =>
    let (result, w) := action.run.run w
    (result.mapError wrap, w)

end Work

end ConfigPack
