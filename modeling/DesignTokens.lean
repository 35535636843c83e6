import DesignTokens.Conversion.Meaning
import DesignTokens.Decimal.Literal
import DesignTokens.Json.Layout
import DesignTokens.Json.Nesting
import DesignTokens.OrderedMap.Lemmas
import DesignTokens.Proofs.Binary64.Nearest
import DesignTokens.Proofs.Binary64.Rounding
import DesignTokens.Proofs.Conversion.Children
import DesignTokens.Proofs.Conversion.Consistent
import DesignTokens.Proofs.Conversion.Equality
import DesignTokens.Proofs.Conversion.Equations
import DesignTokens.Proofs.Conversion.Meaning
import DesignTokens.Proofs.Conversion.Naming
import DesignTokens.Proofs.Conversion.NumberReadBack
import DesignTokens.Proofs.Conversion.NumberText
import DesignTokens.Proofs.Conversion.Paths
import DesignTokens.Proofs.Decimal.Characters
import DesignTokens.Proofs.Decimal.Literal
import DesignTokens.Proofs.Decimal.Shortest
import DesignTokens.Proofs.Json.Integers
import DesignTokens.Proofs.Json.Layout
import DesignTokens.Proofs.Json.ReadBack
import DesignTokens.Proofs.OrderedMap.Access
import DesignTokens.Proofs.OrderedMap.Equality
import DesignTokens.Proofs.OrderedMap.Merge
import DesignTokens.Proofs.Reachable
import DesignTokens.Proofs.Rule.FirstFault
import DesignTokens.Proofs.Rule.Image
import DesignTokens.Proofs.Rule.Reading
import DesignTokens.Proofs.Rule.Tree
import DesignTokens.Proofs.Sheet.Append
import DesignTokens.Proofs.Sheet.Equality
import DesignTokens.Proofs.Sheet.Leaves
import DesignTokens.Proofs.Sheet.Log
import DesignTokens.Proofs.Sheet.Reading
import DesignTokens.Proofs.Sheet.Root
import DesignTokens.Proofs.Sheet.Schedule
import DesignTokens.Proofs.Token.Buildable
import DesignTokens.Proofs.Token.Edit
import DesignTokens.Proofs.Token.Equality
import DesignTokens.Proofs.Token.Inverse
import DesignTokens.Proofs.Token.Json
import DesignTokens.Proofs.Token.Preorder
import DesignTokens.Proofs.Token.Session
import DesignTokens.Proofs.Token.Text
import DesignTokens.Rule.Consistent
import DesignTokens.Rule.Encoding
import DesignTokens.Rule.Nodes
import DesignTokens.Rule.Preorder
import DesignTokens.Sheet.Contribution
import DesignTokens.Token.Edit
import DesignTokens.Token.EntrySession
import DesignTokens.Token.Path
import DesignTokens.Token.Preorder
import DesignTokens.Token.InPlace
import DesignTokens.Proofs.Binary64.Whole
import DesignTokens.Proofs.Token.Frame
import DesignTokens.Proofs.Token.Number
