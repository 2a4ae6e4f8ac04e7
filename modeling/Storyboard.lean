import Storyboard.Composition.Basic
import Storyboard.Composition.File
import Storyboard.Composition.Plain
import Storyboard.Composition.Reader
import Storyboard.Console
import Storyboard.Defaults
import Storyboard.Easing.Basic
import Storyboard.Easing.Bezier
import Storyboard.Easing.Polynomial
import Storyboard.Effect.Basic
import Storyboard.Effect.Entry
import Storyboard.Effect.Style
import Storyboard.Expr.Anchor
import Storyboard.Expr.Error
import Storyboard.Expr.Evaluation
import Storyboard.Expr.Parse
import Storyboard.Expr.Scan
import Storyboard.Expr.Token
import Storyboard.Expr.Tree
import Storyboard.Json.Basic
import Storyboard.Json.Reader
import Storyboard.Json.Writer
import Storyboard.Keyframe.Moment
import Storyboard.Keyframe.Schedule
import Storyboard.Keyframe.Track
import Storyboard.Keyframe.Value
import Storyboard.Motion.Interpolation
import Storyboard.Motion.Point
import Storyboard.Motion.Principles
import Storyboard.Motion.Spring
import Storyboard.Number.Decimal
import Storyboard.Number.Fault
import Storyboard.Number.Layout
import Storyboard.Number.Literal
import Storyboard.Number.Reading
import Storyboard.Number.Scalar
import Storyboard.Order.Insertion
import Storyboard.Order.Merge
import Storyboard.Order.Search
import Storyboard.Order.Sort
import Storyboard.Pause.Sample
import Storyboard.Proofs.Easing.Crossing
import Storyboard.Proofs.Easing.Families
import Storyboard.Proofs.Easing.Inversion
import Storyboard.Proofs.Effect.Moving
import Storyboard.Proofs.Effect.Phases
import Storyboard.Proofs.Effect.Typing
import Storyboard.Proofs.Expr.Dependence
import Storyboard.Proofs.Expr.Faults
import Storyboard.Proofs.Expr.Grammar
import Storyboard.Proofs.Expr.References
import Storyboard.Proofs.Expr.Separation
import Storyboard.Proofs.Expr.Spelling
import Storyboard.Proofs.Keyframe.Moments
import Storyboard.Proofs.Keyframe.Scan
import Storyboard.Proofs.Keyframe.Schedules
import Storyboard.Proofs.Motion.Frames
import Storyboard.Proofs.Motion.Spans
import Storyboard.Proofs.Number.Bounds
import Storyboard.Proofs.Number.Decimals
import Storyboard.Proofs.Number.Difference
import Storyboard.Proofs.Number.Exact
import Storyboard.Proofs.Number.Extremes
import Storyboard.Proofs.Number.Floors
import Storyboard.Proofs.Number.Fractions
import Storyboard.Proofs.Number.HalfUp
import Storyboard.Proofs.Number.Naturals
import Storyboard.Proofs.Number.Numerals
import Storyboard.Proofs.Number.Product
import Storyboard.Proofs.Number.Readings
import Storyboard.Proofs.Number.Roots
import Storyboard.Proofs.Number.Rounding
import Storyboard.Proofs.Number.Shortest
import Storyboard.Proofs.Number.Sum
import Storyboard.Proofs.Number.Units
import Storyboard.Proofs.Order.Bisection
import Storyboard.Proofs.Order.Permutation
import Storyboard.Proofs.Order.Stability
import Storyboard.Proofs.Outcome
import Storyboard.Proofs.Pause.Bounds
import Storyboard.Proofs.Random.Fractions
import Storyboard.Proofs.Random.Normal
import Storyboard.Proofs.Random.Period
import Storyboard.Proofs.Random.Rejection
import Storyboard.Proofs.Random.Shuffling
import Storyboard.Proofs.Random.Words
import Storyboard.Proofs.Schema.Compositions
import Storyboard.Proofs.Schema.Documents
import Storyboard.Proofs.Schema.ReadBack
import Storyboard.Proofs.Stagger.Phases
import Storyboard.Proofs.Stagger.Ranks
import Storyboard.Proofs.Timeline.Acyclic
import Storyboard.Proofs.Timeline.Agreement
import Storyboard.Proofs.Timeline.Atomicity
import Storyboard.Proofs.Timeline.Attempt
import Storyboard.Proofs.Timeline.Bookkeeping
import Storyboard.Proofs.Timeline.Confluence
import Storyboard.Proofs.Timeline.Course
import Storyboard.Proofs.Timeline.Crossfade
import Storyboard.Proofs.Timeline.CueBounds
import Storyboard.Proofs.Timeline.Diagnosis
import Storyboard.Proofs.Timeline.Drawing
import Storyboard.Proofs.Timeline.Embedding
import Storyboard.Proofs.Timeline.Ending
import Storyboard.Proofs.Timeline.Essence
import Storyboard.Proofs.Timeline.Expansion
import Storyboard.Proofs.Timeline.Extent
import Storyboard.Proofs.Timeline.Failure
import Storyboard.Proofs.Timeline.Final
import Storyboard.Proofs.Timeline.Guarded
import Storyboard.Proofs.Timeline.Identity
import Storyboard.Proofs.Timeline.Inputs
import Storyboard.Proofs.Timeline.Insertion
import Storyboard.Proofs.Timeline.Inventory
import Storyboard.Proofs.Timeline.Layout
import Storyboard.Proofs.Timeline.Ledger
import Storyboard.Proofs.Timeline.Lengths
import Storyboard.Proofs.Timeline.Names
import Storyboard.Proofs.Timeline.Neighbours
import Storyboard.Proofs.Timeline.Publishing
import Storyboard.Proofs.Timeline.Recording
import Storyboard.Proofs.Timeline.Retry
import Storyboard.Proofs.Timeline.Reuse
import Storyboard.Proofs.Timeline.Samples
import Storyboard.Proofs.Timeline.SceneOrder
import Storyboard.Proofs.Timeline.Seeds
import Storyboard.Proofs.Timeline.Segments
import Storyboard.Proofs.Timeline.Shorthand
import Storyboard.Proofs.Timeline.Shown
import Storyboard.Proofs.Timeline.Solution
import Storyboard.Proofs.Timeline.Spending
import Storyboard.Proofs.Timeline.Stream
import Storyboard.Proofs.Timeline.Table
import Storyboard.Proofs.Timeline.Tiling
import Storyboard.Proofs.Timeline.Turns
import Storyboard.Proofs.Timeline.Windows
import Storyboard.Random.Mulberry
import Storyboard.Random.Normal
import Storyboard.Random.Shuffle
import Storyboard.Schema.Checked
import Storyboard.Stagger
import Storyboard.Text.Blank
import Storyboard.Text.Byte
import Storyboard.Text.Digit
import Storyboard.Text.LowerCase
import Storyboard.Text.Quoted
import Storyboard.Text.Symbol
import Storyboard.Timeline.Basic
import Storyboard.Timeline.Draw
import Storyboard.Timeline.Error
import Storyboard.Timeline.Expand
import Storyboard.Timeline.Place
import Storyboard.Timeline.Plain
import Storyboard.Timeline.Plan
import Storyboard.Timeline.Resolve
import Storyboard.Timeline.Stuck
