import Tundra.Lib.Checked
import Tundra.Lib.Method
import Tundra.Lib.Table
import Tundra.Lib.Greedy
import Tundra.Lib.Join
import Tundra.Lib.Overflow
import Tundra.Lib.Numeral
import Tundra.Lib.Chunk
import Tundra.Lib.Merkle
import Tundra.Error
import Tundra.Lib.Wire
import Tundra.Lib.Canonical
import Tundra.Lib.Ascii
import Tundra.Bitcoin
import Tundra.Text
import Tundra.Model
import Tundra.Signing.Limits
import Tundra.Env
import Tundra.Signing.Response
import Tundra.Schema
import Tundra.Labels
import Tundra.Descriptor
import Tundra.Engine
import Tundra.Signing.Merge
import Tundra.Signing.MergeSound
import Tundra.Signing.Witness
import Tundra.Signing.Draft
import Tundra.Amount
import Tundra.Usb.Framing
import Tundra.Usb.Descriptor
import Tundra.Signing.Loaded
import Tundra.Signing.Aggregate
import Tundra.Broadcast
import Tundra.Sync
import Tundra.Recovery
import Tundra.Backup
import Tundra.Lib.Transition
import Tundra.Lib.Ledger
import Tundra.System
import Tundra.Previews
import Tundra.Signing.Join
import Tundra.Signing.Truth
import Tundra.Signing.Finalize
import Tundra.Drafts
import Tundra.Planned
import Tundra.Suspended
import Tundra.Effects
import Tundra.Store
import Tundra.Restored
import Tundra.Paths
import Tundra.Reservations
import Tundra.Requests
import Tundra.Permanence
import Tundra.Finality
import Tundra.Protocol
import Tundra.Holds
import Tundra.Accepted
import Tundra.Stable
import Tundra.Created
import Tundra.Totals
import Tundra.Chain
import Tundra.Esplora
import Tundra.Scan
import Tundra.Fixture.Codec
import Tundra.Signing.Grammar
import Tundra.Fixture.Maps
import Tundra.Fixture.Data
import Tundra.Fixture.Wallet
import Tundra.Fixture.Text
import Tundra.Fixture.Env
import Tundra.Fixture.Chain
import Tundra.Fixture.Server
import Tundra.Inclusion
import Tundra.Histories
import Tundra.Downloads
import Tundra.Integrity
import Tundra.Gap
import Tundra.Snapshots
import Tundra.Separation
import Tundra.Provenance
import Tundra.Genesis
import Tundra.Usb.Protocol
import Tundra.Usb.Replies
import Tundra.Usb.Session
import Tundra.Usb.Budget
import Tundra.Usb.Adapter
import Tundra.Usb.Published
import Tundra.Usb.Registrations
import Tundra.Lib.Journal
import Tundra.StoreSelection
import Tundra.Storage
import Tundra.Fixture.Cipher
import Tundra.Selected
import Tundra.Qr.Transport
import Tundra.Qr.Session
import Tundra.Lib.Gather
import Tundra.Qr.Reassembly
import Tundra.Qr.RoundTrip
import Tundra.Fixture.Frames
import Tundra.Operations
import Tundra.SyncProtocol
import Tundra.Connections
import Tundra.Observed
import Tundra.Revealed
import Tundra.Inputs
import Tundra.Spellings
import Tundra.Exports
import Tundra.Changes
import Tundra.Identity
import Tundra.Writings
import Tundra.Fixture.Json
import Tundra.Fixture.Descriptors
import Tundra.Fixture.Keychain
import Tundra.Fixture.Account
import Tundra.Fixture.Stored
import Tundra.Fixture.Synced
import Tundra.Fixture.Ledger
import Tundra.Fixture.Unconfirmed
import Tundra.Fixture.Spending
import Tundra.Fixture.Evicted
import Tundra.Fixture.Signed
import Tundra.Fixture.Submitted
import Tundra.Fixture.Rebuilt
import Tundra.Fixture.Huge
import Tundra.Fixture.Labelled
import Tundra.Vault
import Tundra.FirstOpen
import Tundra.Fixture.Install
