import Tenancy.Access.Collection
import Tenancy.Access.Grant
import Tenancy.Access.GrantTable
import Tenancy.Access.Permission
import Tenancy.Access.PermissionSet
import Tenancy.Access.Request
import Tenancy.Access.Verb
import Tenancy.Base64
import Tenancy.Bench.Change
import Tenancy.Bench.Fault
import Tenancy.Bench.Labels
import Tenancy.Bench.Marker
import Tenancy.Bench.Plan
import Tenancy.Bench.Records
import Tenancy.Bench.Script
import Tenancy.Bench.Session
import Tenancy.Bench.Stack
import Tenancy.Bench.Transcript
import Tenancy.Bench.Trial
import Tenancy.Bench.World
import Tenancy.Billing.Directory
import Tenancy.Billing.Memory
import Tenancy.Billing.Record
import Tenancy.Billing.Scavenger
import Tenancy.Billing.System
import Tenancy.Billing.Task
import Tenancy.Cell
import Tenancy.Decimal.Shortest
import Tenancy.Digest.Block
import Tenancy.Digest.Sha1
import Tenancy.Digest.Sha256
import Tenancy.Feed.Bus
import Tenancy.Feed.Channel
import Tenancy.Feed.Event
import Tenancy.Feed.Watch
import Tenancy.Fiber
import Tenancy.Json.Basic
import Tenancy.Json.Fault
import Tenancy.Json.Format
import Tenancy.Json.Lexer
import Tenancy.Json.Printer
import Tenancy.Json.Query
import Tenancy.Json.Reader
import Tenancy.KeyOrder
import Tenancy.Organization.Account
import Tenancy.Organization.Api
import Tenancy.Organization.Basic
import Tenancy.Organization.InMemory
import Tenancy.Organization.Invitation
import Tenancy.Organization.Membership
import Tenancy.Organization.Ownership
import Tenancy.Organization.Role
import Tenancy.Proofs.Access.Coverage
import Tenancy.Proofs.Access.Decision
import Tenancy.Proofs.Access.DecisionRule
import Tenancy.Proofs.Access.GrantTable
import Tenancy.Proofs.Access.PermissionSet
import Tenancy.Proofs.Access.PermissionText
import Tenancy.Proofs.Base64
import Tenancy.Proofs.Base64.Digits
import Tenancy.Proofs.Billing.Creation
import Tenancy.Proofs.Billing.Fates
import Tenancy.Proofs.Billing.GracePeriod
import Tenancy.Proofs.Billing.Interleaving
import Tenancy.Proofs.Billing.MarkerProtocol
import Tenancy.Proofs.Billing.NameRule
import Tenancy.Proofs.Billing.Pairing
import Tenancy.Proofs.Billing.Programs
import Tenancy.Proofs.Billing.Readings
import Tenancy.Proofs.Billing.RecordTable
import Tenancy.Proofs.Billing.Stages
import Tenancy.Proofs.Billing.Sweep
import Tenancy.Proofs.Billing.TableHistory
import Tenancy.Proofs.Billing.TableRun
import Tenancy.Proofs.Feed.Account
import Tenancy.Proofs.Feed.Bus
import Tenancy.Proofs.Feed.Lockstep
import Tenancy.Proofs.Feed.Passage
import Tenancy.Proofs.Feed.Relay
import Tenancy.Proofs.Feed.Screening
import Tenancy.Proofs.Feed.Turn
import Tenancy.Proofs.Fiber
import Tenancy.Proofs.Json.Format
import Tenancy.Proofs.Json.Record
import Tenancy.Proofs.Json.Scalar
import Tenancy.Proofs.Json.Union
import Tenancy.Proofs.Operation
import Tenancy.Proofs.Organization.Acceptance
import Tenancy.Proofs.Organization.ApiRun
import Tenancy.Proofs.Organization.Calls
import Tenancy.Proofs.Organization.Farewell
import Tenancy.Proofs.Organization.Founding
import Tenancy.Proofs.Organization.GrantNames
import Tenancy.Proofs.Organization.MembershipNames
import Tenancy.Proofs.Organization.OwnerEffects
import Tenancy.Proofs.Organization.OwnerGrants
import Tenancy.Proofs.Organization.RolePermissions
import Tenancy.Proofs.Organization.SingleUse
import Tenancy.Proofs.SortedMap
import Tenancy.Proofs.Store.Authorized
import Tenancy.Proofs.Store.BlobCalls
import Tenancy.Proofs.Store.BlobStore
import Tenancy.Proofs.Store.ChangeFeed
import Tenancy.Proofs.Store.ChangeLog
import Tenancy.Proofs.Store.Compensation
import Tenancy.Proofs.Store.ConcurrentUpdates
import Tenancy.Proofs.Store.Disclosure
import Tenancy.Proofs.Store.EntryNames
import Tenancy.Proofs.Store.Error
import Tenancy.Proofs.Store.ErrorTree
import Tenancy.Proofs.Store.FailedWrite
import Tenancy.Proofs.Store.FilteredWatch
import Tenancy.Proofs.Store.GeneratedName
import Tenancy.Proofs.Store.Identity
import Tenancy.Proofs.Store.MemoryContainer
import Tenancy.Proofs.Store.Name
import Tenancy.Proofs.Store.Page
import Tenancy.Proofs.Store.PageSize
import Tenancy.Proofs.Store.Permission
import Tenancy.Proofs.Store.PlainMap
import Tenancy.Proofs.Store.Position
import Tenancy.Proofs.Store.Provision
import Tenancy.Proofs.Store.Replay
import Tenancy.Proofs.Store.Request
import Tenancy.Proofs.Store.Respect
import Tenancy.Proofs.Store.Restriction
import Tenancy.Proofs.Store.Rewriting
import Tenancy.Proofs.Store.Rollback
import Tenancy.Proofs.Store.Scan
import Tenancy.Proofs.Store.Secrecy
import Tenancy.Proofs.Store.Token
import Tenancy.Proofs.Store.Transparent
import Tenancy.Proofs.Store.UpdateTurns
import Tenancy.Proofs.Store.Veil
import Tenancy.Proofs.Store.Version
import Tenancy.Proofs.Store.Visibility
import Tenancy.Proofs.Store.WatchStream
import Tenancy.Proofs.Store.Write
import Tenancy.Proofs.Text.Boundary
import Tenancy.Proofs.Text.Clip
import Tenancy.Proofs.Text.Utf8
import Tenancy.Proofs.Time
import Tenancy.Proofs.Time.Calendar
import Tenancy.Proofs.Time.Text
import Tenancy.Proofs.Uid
import Tenancy.Proofs.Wire.Formats
import Tenancy.Proofs.Wire.RoundTrip
import Tenancy.SortedMap
import Tenancy.Store.Authorized
import Tenancy.Store.Blob
import Tenancy.Store.Capabilities
import Tenancy.Store.Codec
import Tenancy.Store.Config
import Tenancy.Store.Container
import Tenancy.Store.Contract
import Tenancy.Store.Error
import Tenancy.Store.Memory
import Tenancy.Store.Name
import Tenancy.Store.Provisioned
import Tenancy.Store.Resource
import Tenancy.Store.Token
import Tenancy.Text.Blank
import Tenancy.Text.Combining
import Tenancy.Text.Keyword
import Tenancy.Text.Numeral
import Tenancy.Text.Quoted
import Tenancy.Text.Unprintable
import Tenancy.Text.Utf8
import Tenancy.Time.Basic
import Tenancy.Time.Calendar
import Tenancy.Time.Printer
import Tenancy.Time.Reader
import Tenancy.Uid
import Tenancy.Wire.Access
import Tenancy.Wire.Billing
import Tenancy.Wire.Catalogue
import Tenancy.Wire.Error
import Tenancy.Wire.Feed
import Tenancy.Wire.Organization
import Tenancy.Wire.Scalar
import Tenancy.Wire.Store
