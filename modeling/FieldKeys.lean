import FieldKeys.Expansion
import FieldKeys.KeyMap
import FieldKeys.Proofs.Mapping
import FieldKeys.Proofs.Grammar.Brackets
import FieldKeys.Proofs.Grammar.Shapes
import FieldKeys.Proofs.Quoted
import FieldKeys.Proofs.Record
import FieldKeys.Proofs.Expansion
import FieldKeys.Proofs.FieldKey
import FieldKeys.Proofs.Word
import FieldKeys.Proofs.DistinctKeys
import FieldKeys.Proofs.FieldLookup
import FieldKeys.Proofs.KeyMap
import FieldKeys.Proofs.Stages
import FieldKeys.Proofs.StyleGrouping
import FieldKeys.Proofs.IgnoredFields
import FieldKeys.Proofs.AppendedFields
import FieldKeys.Proofs.FieldOrder
import FieldKeys.Proofs.FurtherArguments
import FieldKeys.Proofs.Edits
import FieldKeys.Proofs.Log
import FieldKeys.Proofs.Grammar.Cut
import FieldKeys.Proofs.Grammar.LastTokens
import FieldKeys.Proofs.OwnTokens
import FieldKeys.Proofs.Text.Comment
import FieldKeys.Proofs.Text.Cover
import FieldKeys.Proofs.Text.Slice
import FieldKeys.Proofs.TwoStyles
import FieldKeys.Proofs.FieldAttributes
import FieldKeys.Proofs.KeySpelling
import FieldKeys.Proofs.StyleName
import FieldKeys.Proofs.FaultSpan
import FieldKeys.Proofs.RawMarks
