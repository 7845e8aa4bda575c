import Allowlist.Files.Listing
import Allowlist.Main
import Allowlist.Proofs.Command.Escapes
import Allowlist.Proofs.Policy.Bounds
import Allowlist.Proofs.Policy.Rendering
import Allowlist.Proofs.Policy.Restricted
import Allowlist.Proofs.Run.Effects
import Allowlist.Log.Session
import Allowlist.Proofs.Files.Apart
import Allowlist.Proofs.Run.Idempotent
import Allowlist.Proofs.Command.Layers
import Allowlist.Proofs.Command.Hint
import Allowlist.Proofs.Command.Rerun
import Allowlist.Proofs.Log.Record
import Allowlist.Proofs.Log.Session
import Allowlist.Proofs.Text.Pieces
import Allowlist.Proofs.Yaml.Front
import Allowlist.Proofs.Json.Line
import Allowlist.Proofs.Log.Line
import Allowlist.Proofs.Log.Token
import Allowlist.Proofs.Log.Contexts
import Allowlist.Proofs.Run.Events
import Allowlist.Proofs.Command.Accounted
import Allowlist.Proofs.Policy.Content
import Allowlist.Proofs.Policy.Ordered
import Allowlist.Proofs.Surface.Append
import Allowlist.Proofs.Settings.Problems
import Allowlist.Proofs.Json.Writable
