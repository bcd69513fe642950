import Relink.Command.Arguments
import Relink.Command.Program
import Relink.Command.Redirect
import Relink.Command.Surroundings
import Relink.Config.Basic
import Relink.Config.Decode
import Relink.Config.Environment
import Relink.Config.Load
import Relink.Config.Scan
import Relink.Config.Toml.Document
import Relink.Config.Toml.Number
import Relink.Config.Toml.Table
import Relink.Config.Toml.Text
import Relink.Config.Value
import Relink.Edit
import Relink.Error
import Relink.Layout
import Relink.Log
import Relink.Log.Filter
import Relink.Log.Render
import Relink.Main
import Relink.ModuleRoot
import Relink.Path
import Relink.Plan
import Relink.Proofs.ChildPath
import Relink.Proofs.CollectedFiles
import Relink.Proofs.Commit
import Relink.Proofs.Container
import Relink.Proofs.DirectPath
import Relink.Proofs.DirectorySpelling
import Relink.Proofs.DiskFiles
import Relink.Proofs.DiskGrowth
import Relink.Proofs.DiskTree
import Relink.Proofs.EditFit
import Relink.Proofs.FileRedirect
import Relink.Proofs.FirstFailure
import Relink.Proofs.ImportOrder
import Relink.Proofs.Independence
import Relink.Proofs.KnownDirectory
import Relink.Proofs.Layers
import Relink.Proofs.LeadingMark
import Relink.Proofs.LeftToRight
import Relink.Proofs.LexicalWalk
import Relink.Proofs.NameAgreement
import Relink.Proofs.NearestRoot
import Relink.Proofs.NewText
import Relink.Proofs.Offset
import Relink.Proofs.OtherTexts
import Relink.Proofs.OwningRoot
import Relink.Proofs.PackageName
import Relink.Proofs.ParentPath
import Relink.Proofs.PartialSettings
import Relink.Proofs.Patch
import Relink.Proofs.PathOrder
import Relink.Proofs.PlacePath
import Relink.Proofs.Planning
import Relink.Proofs.Policies
import Relink.Proofs.Precedence
import Relink.Proofs.ProjectLayout
import Relink.Proofs.Quoting
import Relink.Proofs.Respelling
import Relink.Proofs.Run
import Relink.Proofs.ScannedValue
import Relink.Proofs.SingleSettings
import Relink.Proofs.StoreAgreement
import Relink.Proofs.StoreFrame
import Relink.Proofs.StoreHistory
import Relink.Proofs.StoreLaws
import Relink.Proofs.TemporaryFile
import Relink.Proofs.Terminator
import Relink.Proofs.TokenPlace
import Relink.Proofs.Traced
import Relink.Proofs.Transparent
import Relink.Proofs.ValueOverlay
import Relink.Redirect
import Relink.Source.Grammar.Basic
import Relink.Source.Grammar.Binding
import Relink.Source.Grammar.Expressions
import Relink.Source.Grammar.Functions
import Relink.Source.Grammar.Markup
import Relink.Source.Grammar.Modules
import Relink.Source.Grammar.Statements
import Relink.Source.Grammar.Types
import Relink.Source.Imports
import Relink.Source.Literal
import Relink.Source.Reader
import Relink.Source.Token
import Relink.Store.Basic
import Relink.Store.Disk
import Relink.Store.Faulty
import Relink.Store.Memory
import Relink.Store.Overlay
import Relink.Text.Blank
import Relink.Text.Identifier
import Relink.Text.Offset
import Relink.Text.Upper
import Relink.Workspace
