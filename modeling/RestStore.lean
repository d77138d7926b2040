import RestStore.Decode
import RestStore.Proofs.Bound.Objects
import RestStore.Proofs.Bound.Queries
import RestStore.Proofs.Bound.Values
import RestStore.Proofs.Bytes
import RestStore.Proofs.Calendar.Civil
import RestStore.Proofs.Calendar.Counts
import RestStore.Proofs.Calendar.Iso
import RestStore.Proofs.Calendar.Quantities
import RestStore.Proofs.Calendar.Rendered
import RestStore.Proofs.Calendar.Spelled
import RestStore.Proofs.Calendar.Unread
import RestStore.Proofs.Column
import RestStore.Proofs.Constraint.AxisOrder
import RestStore.Proofs.Constraint.Entries
import RestStore.Proofs.Constraint.Names
import RestStore.Proofs.Constraint.Order
import RestStore.Proofs.Constraint.Regexes
import RestStore.Proofs.Constraint.Region
import RestStore.Proofs.Constraint.Sphere
import RestStore.Proofs.Decode.Order
import RestStore.Proofs.Decode.Placements
import RestStore.Proofs.Double.Nearest
import RestStore.Proofs.Double.Order
import RestStore.Proofs.Double.Rounding
import RestStore.Proofs.Double.Value
import RestStore.Proofs.Elements
import RestStore.Proofs.Fields
import RestStore.Proofs.Internal.Branches
import RestStore.Proofs.Internal.Objects
import RestStore.Proofs.Internal.Queries
import RestStore.Proofs.Internal.Values
import RestStore.Proofs.Native.Atoms
import RestStore.Proofs.Native.Fits
import RestStore.Proofs.Native.Given
import RestStore.Proofs.Native.Height
import RestStore.Proofs.Native.Keys
import RestStore.Proofs.Native.Literal
import RestStore.Proofs.Native.Origin
import RestStore.Proofs.Nesting
import RestStore.Proofs.ObjectId
import RestStore.Proofs.Operation
import RestStore.Proofs.Outcome
import RestStore.Proofs.Permission.Columns
import RestStore.Proofs.Permission.Derived
import RestStore.Proofs.Permission.Grants
import RestStore.Proofs.Permission.Lists
import RestStore.Proofs.Permission.OlderMap
import RestStore.Proofs.Permission.OtherFields
import RestStore.Proofs.Permission.Positions
import RestStore.Proofs.Permission.Replaced
import RestStore.Proofs.Permission.Runs
import RestStore.Proofs.Permission.Stable
import RestStore.Proofs.Placement
import RestStore.Proofs.Readability.Conditions
import RestStore.Proofs.Readability.Field
import RestStore.Proofs.Readability.Object
import RestStore.Proofs.Relations
import RestStore.Proofs.Rest.Alike
import RestStore.Proofs.Rest.Envelope
import RestStore.Proofs.Rest.Height
import RestStore.Proofs.Rest.Inside
import RestStore.Proofs.Rest.Shape
import RestStore.Proofs.RoundTrip.Depth
import RestStore.Proofs.RoundTrip.Field
import RestStore.Proofs.RoundTrip.Given
import RestStore.Proofs.RoundTrip.Nested
import RestStore.Proofs.RoundTrip.Object
import RestStore.Proofs.RoundTrip.Plain
import RestStore.Proofs.RoundTrip.Ring
import RestStore.Proofs.RoundTrip.Stored
import RestStore.Proofs.RoundTrip.Written
import RestStore.Proofs.Text.Affix
import RestStore.Proofs.Text.Base64
import RestStore.Proofs.Text.Base64Pattern
import RestStore.Proofs.Text.Base64Shape
import RestStore.Proofs.Text.Digits
import RestStore.Proofs.Text.Integers
import RestStore.Proofs.Text.Numerals
import RestStore.Proofs.Text.Search
import RestStore.Proofs.Where.Clauses
import RestStore.Proofs.Where.Columns
import RestStore.Proofs.Where.Conjunction
import RestStore.Proofs.Where.Equality
import RestStore.Proofs.Where.Merge
import RestStore.Proofs.Where.Negation
import RestStore.Proofs.Where.Operators
import RestStore.Proofs.Write.Agreement
import RestStore.Proofs.Write.Columns
import RestStore.Proofs.Write.Contributions
import RestStore.Proofs.Write.Fieldwise
import RestStore.Proofs.Write.Keys
import RestStore.Proofs.Write.Partition
import RestStore.Proofs.Write.Parts
import RestStore.Proofs.Write.Rederived
import RestStore.Proofs.Write.SameDocuments
import RestStore.Rest.NumberText
import RestStore.Where
import RestStore.Write.Update
