import Resoto.Python.Basic
import Resoto.Python.Dict
import Resoto.Query.Model
import Resoto.Query.Builder
import Resoto.Query.Rewrite
import Resoto.Query.RewriteSound
import Resoto.Query.RewriteSplit
import Resoto.Query.Reachable
import Resoto.Query.BuilderLaws
import Resoto.Query.FromJson
import Resoto.Query.Variables
import Resoto.Query.CombineLaws
import Resoto.Query.RewriteIdempotent
import Resoto.Query.RewriteErrors
import Resoto.Query.WalkCalls
import Resoto.Query.Analytics
import Resoto.Query.Render
import Resoto.Report.Model
import Resoto.Report.Inspector
import Resoto.Report.CompletionOrder
import Resoto.Report.Failures
import Resoto.Report.SecuritySection
import Resoto.Report.Sync
import Resoto.Report.Overrides
import Resoto.Report.Validation
import Resoto.Report.ResultTree
import Resoto.Report.Store
import Resoto.Report.LoadBenchmarks
import Resoto.ModelGen.Shapes
import Resoto.ModelGen.ClazzModel
import Resoto.ModelGen.Termination
import Resoto.ModelGen.ClassNames
import Resoto.ModelGen.TestResponse
import Resoto.ModelGen.ClassOrder
import Resoto.ModelGen.PropertyNames
import Resoto.ModelGen.ClassText
import Resoto.Cloudkeeper.Event
