import SignOn.Attempt
import SignOn.Command.Arguments
import SignOn.Command.Run
import SignOn.Credentials
import SignOn.Decimal.Notation
import SignOn.Decimal.Parts
import SignOn.Decimal.Shortest
import SignOn.Error
import SignOn.Files.Path
import SignOn.Files.Tree
import SignOn.Flow
import SignOn.Idp.Families
import SignOn.Idp.Family
import SignOn.Idp.Handler
import SignOn.Json.Decode
import SignOn.Json.Draft
import SignOn.Json.Printer
import SignOn.Json.Reader
import SignOn.Json.Value
import SignOn.Main
import SignOn.Manager
import SignOn.Page.Call
import SignOn.Page.Look
import SignOn.Page.Race
import SignOn.Page.Scripted
import SignOn.Pattern.Basic
import SignOn.Pattern.Class
import SignOn.Pattern.Parser
import SignOn.Plan
import SignOn.Proofs.Addresses
import SignOn.Proofs.AllOrNothing
import SignOn.Proofs.Attribution
import SignOn.Proofs.Banners
import SignOn.Proofs.Bytes
import SignOn.Proofs.CheckedSettings
import SignOn.Proofs.Cleanups
import SignOn.Proofs.Confinement
import SignOn.Proofs.Descents
import SignOn.Proofs.Directories
import SignOn.Proofs.FileNames
import SignOn.Proofs.Files
import SignOn.Proofs.Findings
import SignOn.Proofs.FlowFailures
import SignOn.Proofs.FlowOrder
import SignOn.Proofs.FlowSteps
import SignOn.Proofs.FreshCodes
import SignOn.Proofs.Handlers
import SignOn.Proofs.Independence
import SignOn.Proofs.Interleavings
import SignOn.Proofs.Inventory
import SignOn.Proofs.Json.Acceptance
import SignOn.Proofs.Json.Decoding
import SignOn.Proofs.Json.DottedPaths
import SignOn.Proofs.Json.Grammar
import SignOn.Proofs.Json.Leaves
import SignOn.Proofs.Json.NumberTexts
import SignOn.Proofs.Json.Reading
import SignOn.Proofs.Json.Records
import SignOn.Proofs.Json.Tokens
import SignOn.Proofs.Lasting
import SignOn.Proofs.LastingFailures
import SignOn.Proofs.Layering
import SignOn.Proofs.Leftovers
import SignOn.Proofs.Listing
import SignOn.Proofs.Logouts
import SignOn.Proofs.MissingByRole
import SignOn.Proofs.NameReading
import SignOn.Proofs.Observers
import SignOn.Proofs.OneTimeCodes
import SignOn.Proofs.Parents
import SignOn.Proofs.Paths
import SignOn.Proofs.Plans
import SignOn.Proofs.Preflight
import SignOn.Proofs.Probes
import SignOn.Proofs.ProperTrees
import SignOn.Proofs.Providers
import SignOn.Proofs.PushApproval
import SignOn.Proofs.PushLogins
import SignOn.Proofs.Races
import SignOn.Proofs.Readings
import SignOn.Proofs.Refreshing
import SignOn.Proofs.Removals
import SignOn.Proofs.Retries
import SignOn.Proofs.Reuse
import SignOn.Proofs.RolesApart
import SignOn.Proofs.RoundTrip
import SignOn.Proofs.Secrecy
import SignOn.Proofs.SessionEffects
import SignOn.Proofs.SessionTexts
import SignOn.Proofs.Sessions
import SignOn.Proofs.SettingsTexts
import SignOn.Proofs.SharedPage
import SignOn.Proofs.SignOffAddresses
import SignOn.Proofs.SigningOff
import SignOn.Proofs.SingleFlight
import SignOn.Proofs.Stores
import SignOn.Proofs.Sweeps
import SignOn.Proofs.Thinning
import SignOn.Proofs.TimeLimit
import SignOn.Proofs.TokenLogins
import SignOn.Proofs.TokenStorage
import SignOn.Proofs.Traces
import SignOn.Proofs.Twins
import SignOn.Proofs.WindowEnds
import SignOn.Proofs.Worlds
import SignOn.Proofs.Writability
import SignOn.Provider.Basic
import SignOn.Provider.Build
import SignOn.Provider.Custom
import SignOn.Provider.Form
import SignOn.Provider.Oidc
import SignOn.Provider.Token
import SignOn.Retry
import SignOn.Settings.Basic
import SignOn.Settings.Format
import SignOn.Store.Basic
import SignOn.Store.Naming
import SignOn.Text.Blank
import SignOn.Text.Search
import SignOn.Text.Symbols
import SignOn.Text.Timestamp
import SignOn.Text.Upper
import SignOn.Text.Visible
import SignOn.Totp.Base32
import SignOn.Totp.Code
import SignOn.Totp.Engine
import SignOn.Totp.Sha1
import SignOn.Url.Basic
import SignOn.Url.Encoding
import SignOn.Url.Host
import SignOn.World
