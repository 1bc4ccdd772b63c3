import LiteSoroban.Lib.Machine
import LiteSoroban.Lib.Effect
import LiteSoroban.Lib.InsertionMap
import LiteSoroban.Lib.Selection
import LiteSoroban.Lib.XdrSize
import LiteSoroban.Lib.Rounding
import LiteSoroban.Lib.Phases
import LiteSoroban.Lib.PrefixCode
import LiteSoroban.Lib.Paging
import LiteSoroban.Lib.OrderedCode
import LiteSoroban.Lib.Locality
import LiteSoroban.Lib.Total
import LiteSoroban.Lib.Memo
import LiteSoroban.Lib.Filling
import LiteSoroban.Lib.Lease
import LiteSoroban.Xdr.Types
import LiteSoroban.Xdr.Size
import LiteSoroban.Xdr.AccountSize
import LiteSoroban.Env.Deps
import LiteSoroban.Env.State
import LiteSoroban.Env.Fees
import LiteSoroban.Env.Send
import LiteSoroban.Env.SendSpec
import LiteSoroban.Env.SendThrows
import LiteSoroban.Env.HostContract
import LiteSoroban.Env.SendTtl
import LiteSoroban.Env.Simulate
import LiteSoroban.Env.SendEntries
import LiteSoroban.Env.SendVerdict
import LiteSoroban.Env.KeyLists
import LiteSoroban.Env.StateHash
import LiteSoroban.Env.Client
import LiteSoroban.Env.Rollback
import LiteSoroban.Env.Locality
import LiteSoroban.Ledger
import LiteSoroban.Classic.Account
import LiteSoroban.Classic.Extensions
import LiteSoroban.Classic.Signatures
import LiteSoroban.Classic.Outcome
import LiteSoroban.Classic.Preconditions
import LiteSoroban.Classic.Resources
import LiteSoroban.Classic.FootprintOps
import LiteSoroban.Classic.Apply
import LiteSoroban.Classic.Frame
import LiteSoroban.Classic.ChecksSpec
import LiteSoroban.Classic.Verdicts
import LiteSoroban.Classic.ApplySpec
import LiteSoroban.Classic.Atomicity
import LiteSoroban.Classic.AccountFrame
import LiteSoroban.Classic.DiskReads
import LiteSoroban.Classic.BumpFees
import LiteSoroban.Classic.ResourcesSpec
import LiteSoroban.Classic.Precedence
import LiteSoroban.Classic.Switches
import LiteSoroban.Classic.Quote
import LiteSoroban.Classic.FootprintSpec
import LiteSoroban.Classic.Steps
import LiteSoroban.Classic.FootprintSelection
import LiteSoroban.Classic.FootprintRefinement
import LiteSoroban.Classic.FootprintApplied
import LiteSoroban.Classic.FootprintTtls
import LiteSoroban.Classic.FootprintRent
import LiteSoroban.Classic.FeeAccounting
import LiteSoroban.Classic.Reserve
import LiteSoroban.Classic.SequenceSpec
import LiteSoroban.Classic.Exceptions
import LiteSoroban.Classic.SignatureSpec
import LiteSoroban.Classic.SignatureVerdict
import LiteSoroban.Classic.Authorization
import LiteSoroban.Classic.Locality
import LiteSoroban.Ledger.Machine
import LiteSoroban.Ledger.Window
import LiteSoroban.Ledger.WellFormed
import LiteSoroban.Ledger.Independent
import LiteSoroban.Ledger.Supply
import LiteSoroban.Ledger.FeeBump
import LiteSoroban.Ledger.Leases
import LiteSoroban.Fixtures
import LiteSoroban.Rpc.Types
import LiteSoroban.Rpc.Facade
import LiteSoroban.Rpc.FacadeSpec
import LiteSoroban.Rpc.Results
import LiteSoroban.Rpc.AutoRestore
import LiteSoroban.Rpc.Paging
import LiteSoroban.Session.Machine
import LiteSoroban.Session.Replay
import LiteSoroban.Session.Steps
import LiteSoroban.Session.Logs
import LiteSoroban.Session.Submission
import LiteSoroban.Session.Results
import LiteSoroban.Session.Events
import LiteSoroban.Session.Refinement
import LiteSoroban.LiteStellar
import LiteSoroban.Fixtures.Trustlines
import LiteSoroban.Fixtures.SubEntries
import LiteSoroban.Fixtures.Atomicity
import LiteSoroban.LiteStellar.Unchecked
import LiteSoroban.LiteStellar.Sandbox
import LiteSoroban.LiteStellar.Settings
import LiteSoroban.LiteStellar.Loaders
import LiteSoroban.LiteStellar.Replay
import LiteSoroban.LiteStellar.Submitted
import LiteSoroban.Auth.SignatureProofs
import LiteSoroban.Auth.Entries
import LiteSoroban.Env.Caches
