import Nl2Sql.Theorems.Budget
import Nl2Sql.Theorems.Capacity
import Nl2Sql.Theorems.Calculation
import Nl2Sql.Theorems.Registry
import Nl2Sql.Theorems.Soundness
import Nl2Sql.Theorems.SqlBudget
import Nl2Sql.Theorems.NumericGate
import Nl2Sql.Theorems.Grounding
import Nl2Sql.Theorems.ZeroModel
import Nl2Sql.Theorems.Wire
import Nl2Sql.Theorems.Definition
import Nl2Sql.Theorems.Library
import Nl2Sql.Theorems.OperandOrder
import Nl2Sql.Theorems.Rounding
import Nl2Sql.Theorems.Rowset
import Nl2Sql.Theorems.ModelGateway
import Nl2Sql.Theorems.Ambiguity
import Nl2Sql.Theorems.Publication
import Nl2Sql.Theorems.ActiveRelease
import Nl2Sql.Theorems.Bounds
import Nl2Sql.Theorems.CompilerErrors
import Nl2Sql.Theorems.Selection
import Nl2Sql.Theorems.Validator
import Nl2Sql.Theorems.Ratio
import Nl2Sql.Theorems.ResultOrder
import Nl2Sql.Theorems.SourceSelection
import Nl2Sql.Theorems.Streaming
import Nl2Sql.Theorems.ClauseOrder
import Nl2Sql.Theorems.Dependencies
import Nl2Sql.Theorems.AuthoringOrder
import Nl2Sql.Theorems.Fingerprint
import Nl2Sql.Theorems.PublishedResult
import Nl2Sql.Theorems.CustomExecution
import Nl2Sql.Theorems.ArtifactPorts
import Nl2Sql.Theorems.ConflictSelection
import Nl2Sql.Theorems.SnapshotCodec
import Nl2Sql.Theorems.Approval
import Nl2Sql.Theorems.Requests
