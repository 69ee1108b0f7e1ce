import ChartLowering.Output.Render
import ChartLowering.Resolve.Basic

/-
  Compiling a specification.

  A compile goes through four states: the tree of views as built and laid out, the resolved tree,
  the registered and linked datasets, and the document. It depends on nothing but the specification
  and the settings, and an error leaves no partial output.
-/

namespace ChartLowering

namespace TopLevelSpec

/-- The tree of views with shared sizes. -/
def laidOut (t : TopLevelSpec) : ViewTree := (ViewTree.ofSpec t.view).layout

/-- The tree with all components made and shared. -/
def resolved (settings : Settings) (t : TopLevelSpec) : ViewTree :=
  t.laidOut.resolve t.config settings []

/-- The datasets before any view has registered its own, with those that projections ask for. -/
def requested (settings : Settings) (t : TopLevelSpec) : Registry :=
  (Registry.start (t.datasets.mapValues DataSpec.rowsJson) settings.isStrict).note
    (t.resolved settings).requestedOutputs

/-- The datasets with the outputs of all views. -/
def registered (settings : Settings) (t : TopLevelSpec) : Except CompileError Registry :=
  (t.requested settings).registerViews 0 (t.resolved settings).labels

/-- The document of a specification, with the datasets that it was assembled from. -/
def compileWithData (settings : Settings) (t : TopLevelSpec) :
    Except CompileError (Document × Registry) := do
  let r ← t.registered settings
  (t.resolved settings).assemble t.config settings r.link

/-- The document of a specification. -/
def compile (settings : Settings) (t : TopLevelSpec) : Except CompileError Document :=
  (t.compileWithData settings).map Prod.fst

end TopLevelSpec

/-- Why a value has no document. -/
inductive Rejection where
  | invalid (issues : List Schema.Issue)
  | failed (cause : CompileError)
deriving Repr, DecidableEq

/-- Reads a value as a specification, compiles it, and writes out its document. -/
def lower (settings : Settings) (spec : Json) : Except Rejection Json :=
  match Schema.readTopLevel spec with
  | .invalid issues => .error (.invalid issues)
  | .valid t => match t.compile settings with
    | .ok d => .ok d.toJson
    | .error cause => .error (.failed cause)

end ChartLowering
