import Cmp.Crypto.KeyUsage
import Cmp.Crypto.Agreement
import Cmp.Crypto.ReceiveCounter
import Cmp.Crypto.SkipBound
import Cmp.Client.Confirmation
import Cmp.Client.VerifiedMarks
import Cmp.Client.Separation
import Cmp.Client.Gate
import Cmp.Client.Replay
import Cmp.Client.Login
import Cmp.Client.RoundTrip
import Cmp.System.Admission
import Cmp.System.Retention
import Cmp.Relay.FetchWindow
import Cmp.Relay.Rotations
import Cmp.Relay.Ledger
import Cmp.Relay.Timestamps
import Cmp.System.Envelopes
import Cmp.Relay.Retries
import Cmp.Relay.ReceiptLifecycle
