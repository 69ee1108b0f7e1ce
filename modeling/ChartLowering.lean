import ChartLowering.Json.Reader
import ChartLowering.Settings.Source
import ChartLowering.Compile
import ChartLowering.Proofs.Output.References
import ChartLowering.Proofs.Sharing.Contributors
import ChartLowering.Proofs.Output.GuideScales
import ChartLowering.Proofs.Dataset.Backing
import ChartLowering.Proofs.Output.FitSources
import ChartLowering.Proofs.Names.Sizes
import ChartLowering.Proofs.Output.SizeSignals
import ChartLowering.Proofs.Dataset.Roots
import ChartLowering.Proofs.Dataset.Registration
import ChartLowering.Proofs.Dataset.Linking
import ChartLowering.Proofs.Json.Collision
import ChartLowering.Proofs.Dataset.Names
import ChartLowering.Proofs.Dataset.OwnData
import ChartLowering.Proofs.Output.Consulted
import ChartLowering.Proofs.Output.DatasetNames
import ChartLowering.Proofs.Output.WrittenData
import ChartLowering.Proofs.Output.Geometry
import ChartLowering.Proofs.Names.Distinct
import ChartLowering.Proofs.Sharing.AllOrNothing
import ChartLowering.Proofs.Names.Areas
import ChartLowering.Proofs.Tree.Lockstep
import ChartLowering.Proofs.Names.Enclosed
import ChartLowering.Proofs.Sharing.Outline
import ChartLowering.Proofs.Output.Concatenation
import ChartLowering.Proofs.Output.Failures
import ChartLowering.Proofs.Sharing.SingleLayer
import ChartLowering.Proofs.Similar.Outcome
import ChartLowering.Proofs.Output.SingleLayer
import ChartLowering.Proofs.Json.Arrangement
import ChartLowering.Proofs.Json.Overlay
import ChartLowering.Proofs.Similar.Sketch
import ChartLowering.Proofs.Similar.Sharing
import ChartLowering.Proofs.Similar.Trees
import ChartLowering.Proofs.Similar.Datasets
import ChartLowering.Proofs.Similar.Marks
import ChartLowering.Proofs.Similar.Documents
import ChartLowering.Proofs.Similar.Rows
import ChartLowering.Proofs.Similar.Reading
import ChartLowering.Proofs.Similar.Views
import ChartLowering.Proofs.Similar.KeyOrder
import ChartLowering.Proofs.Json.Symmetry
import ChartLowering.Proofs.Sharing.Agreement
import ChartLowering.Proofs.Output.Undeclared
import ChartLowering.Proofs.Schema.Keys
import ChartLowering.Proofs.Schema.Shorthand
import ChartLowering.Proofs.Schema.Longhand
import ChartLowering.Proofs.Sharing.Unlisted
import ChartLowering.Proofs.Dataset.Chains
import ChartLowering.Proofs.Dataset.SharedRoots
import ChartLowering.Proofs.Tree.Numbered
import ChartLowering.Proofs.Tree.Gather
import ChartLowering.Proofs.Tree.Table
import ChartLowering.Proofs.Tree.ViewTable
import ChartLowering.Proofs.Output.AreaSignals
import ChartLowering.Proofs.Output.DrawnOnce
import ChartLowering.Proofs.Dataset.Emission
import ChartLowering.Proofs.Json.RoundTrip
import ChartLowering.Proofs.Json.Canonical
import ChartLowering.Proofs.Settings.Precedence
import ChartLowering.Proofs.Dataset.FieldFlow
import ChartLowering.Proofs.Text.StringLiteral
import ChartLowering.Proofs.Output.Quoting
import ChartLowering.Proofs.Dataset.FitListing
import ChartLowering.Proofs.Names.Changes
import ChartLowering.Proofs.Component.Layers
import ChartLowering.Proofs.Text.Collisions
