import EntityQuery.Filter.Matching
import EntityQuery.Query.Wire
import EntityQuery.Selection.Statement
import EntityQuery.Selection.Batch
import EntityQuery.Settings.Basic
import EntityQuery.Dict.Lemmas
import EntityQuery.Predicate.Lemmas
import EntityQuery.Relation.Tree.Lemmas
import EntityQuery.Text.Pattern.Cut
import EntityQuery.Proofs.Answer
import EntityQuery.Proofs.Filter.Checking
import EntityQuery.Proofs.Filter.Deciding
import EntityQuery.Proofs.Filter.Compiling
import EntityQuery.Proofs.Filter.Meaning
import EntityQuery.Proofs.Sql.Truth
import EntityQuery.Proofs.Filter.Selecting
import EntityQuery.Proofs.Aggregate.Naming
import EntityQuery.Proofs.Dict.Entries
import EntityQuery.Proofs.Aggregate.Answering
import EntityQuery.Proofs.Json.Equality
import EntityQuery.Proofs.Filter.Reading
import EntityQuery.Proofs.Filter.Writing
import EntityQuery.Proofs.Filter.Surviving
import EntityQuery.Proofs.Filter.Grammar
import EntityQuery.Proofs.Filter.Sending
import EntityQuery.Proofs.Relation.Sides
import EntityQuery.Proofs.Relation.Linking
import EntityQuery.Proofs.Relation.Restricting
import EntityQuery.Proofs.Batch.Making
import EntityQuery.Proofs.Batch.Settling
import EntityQuery.Proofs.Batch.Keeping
import EntityQuery.Proofs.Batch.Dispatching
import EntityQuery.Proofs.Batch.Decoding
import EntityQuery.Proofs.Joins.Union
import EntityQuery.Proofs.Joins.Reaching
import EntityQuery.Proofs.Joins.Covering
import EntityQuery.Proofs.Joins.Mentioning
import EntityQuery.Proofs.Filter.Listing
import EntityQuery.Proofs.Predicate.Simplified
import EntityQuery.Proofs.Filter.Combining
import EntityQuery.Proofs.Relation.WholeKey
import EntityQuery.Proofs.Relation.Footprint
import EntityQuery.Proofs.Predicate.Alike
import EntityQuery.Proofs.Relation.Several
import EntityQuery.Proofs.Text.Regex
import EntityQuery.Proofs.Filter.Patterns
import EntityQuery.Proofs.Number.Rounding
import EntityQuery.Proofs.Filter.Integers
import EntityQuery.Proofs.Filter.Relating
import EntityQuery.Proofs.Filter.Vacuous
import EntityQuery.Proofs.Filter.Misnaming
import EntityQuery.Proofs.Sql.Lists
import EntityQuery.Proofs.Joins.Adding
import EntityQuery.Proofs.Sql.Qualifying
import EntityQuery.Proofs.Text.Alphabets
import EntityQuery.Proofs.Filter.IgnoringCase
import EntityQuery.Proofs.Text.Dots
import EntityQuery.Proofs.Joins.Paths
import EntityQuery.Proofs.Aggregate.Grammar
import EntityQuery.Proofs.Json.Quoting
import EntityQuery.Proofs.Json.Printing
import EntityQuery.Proofs.Json.Shapes
import EntityQuery.Proofs.Json.Denoting
import EntityQuery.Proofs.Schema.Describing
import EntityQuery.Proofs.Query.Returning
import EntityQuery.Proofs.Sql.Dotted
