import ChartLowering.Json.Display

/-
  What can be wrong with a chart.

  A `SpecError` is a fault of one definition, found while a specification is read. A `CompileError`
  ends a compile: there is no partial output. Each has one text.
-/

namespace ChartLowering

/-- A fault of one definition. -/
inductive SpecError where
  | unknownChannel (key : Json)
  | unknownMeasure (text : String)
  /-- A channel is defined in more than one way. -/
  | mixedDefinition (given : List String)
  /-- Data come from no source or from several. -/
  | notOneSource (given : List String)
deriving Repr, DecidableEq

def SpecError.message : SpecError → String
  | .unknownChannel key => "unknown encoding channel: " ++ key.display
  | .unknownMeasure text => "unknown measurement type: " ++ Text.quoted text
  | .mixedDefinition given => "channel definition mixes " ++ ", ".intercalate given
  | .notOneSource given =>
    "data must give exactly one of values, url, name (got " ++ (Json.strings given).display ++ ")"

/-- A fault that ends a compile. -/
inductive CompileError where
  /-- A projection is to fit its data, but nothing backs the fit. The view of the top level has the
  empty name. -/
  | fitSourceMissing (component view : String)
  /-- Strict compiles refuse a dataset that is not among the declared ones. -/
  | undeclaredDataset (name : String)
  /-- A guide refers to its scale by a list or an object, which is no name. -/
  | scaleNotAName
  /-- A fit needs something to fit to. -/
  | emptyFit
  /-- A definition is nested too deeply to be handed on. -/
  | tooDeep
deriving Repr, DecidableEq

def CompileError.message : CompileError → String
  | .fitSourceMissing component view =>
    "projection " ++ Text.quoted component ++ " on " ++
      (if view.isEmpty then "the top-level view" else Text.quoted view) ++
      " is fit to its data, but no geometry field or dataset backs the fit"
  | .undeclaredDataset name => "dataset " ++ Text.quoted name ++ " is not declared in datasets"
  | .scaleNotAName => "the scale of a guide is not a name"
  | .emptyFit => "a fit expression needs at least one source"
  | .tooDeep => "Circular reference detected (depth exceeded)"

end ChartLowering
