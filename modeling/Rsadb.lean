import Rsadb.Transport.FramedRoundTrip
import Rsadb.Transport.Usb
import Rsadb.Transport.Headers
import Rsadb.Session.HandshakeSafety
import Rsadb.Session.Deadline
import Rsadb.Services.LostReplies
import Rsadb.Services.Deadlock
import Rsadb.Services.Sync.Sequence
import Rsadb.Services.Sync.Listing
import Rsadb.Services.Sync.StatBlocks
import Rsadb.Services.Sync.ListFail
import Rsadb.Services.Sync.Links
import Rsadb.Services.Sync.Upload
import Rsadb.Device.LocalFile
import Rsadb.Host.Proto
import Rsadb.Services.CommandLine
import Rsadb.Services.Props
import Rsadb.Services.ShellV2Target
import Rsadb.Session.Integrity
import Rsadb.Session.Routing
import Rsadb.Session.Registrations
import Rsadb.Session.Truncation
import Rsadb.Session.Stranding
import Rsadb.Session.Limit
import Rsadb.Session.OneInFlight
import Rsadb.Session.OpenOutcome
import Rsadb.Session.Wakeup
import Rsadb.Track
import Rsadb.Services.Multiline
import Rsadb.Device.Query
import Rsadb.Auth.PubkeyCodec
import Rsadb.Session.Sending
import Rsadb.Session.Dropped
import Rsadb.Session.Entries
import Rsadb.Session.BannerRoundTrip
import Rsadb.Fake.ReadBack
import Rsadb.Fake.Services
import Rsadb.Fake.ShellV2
import Rsadb.Fake.Shaking
import Rsadb.Fake.Inquiry
import Rsadb.Auth.KeyFile
import Rsadb.Transport.Endpoint
