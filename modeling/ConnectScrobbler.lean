import ConnectScrobbler.Lib.Bytes
import ConnectScrobbler.Lib.Digits
import ConnectScrobbler.Lib.Overflow
import ConnectScrobbler.Lib.Call
import ConnectScrobbler.Lib.Lockstep
import ConnectScrobbler.Lib.Projection
import ConnectScrobbler.Lib.Monitor
import ConnectScrobbler.Lib.Future
import ConnectScrobbler.Lib.Mpsc
import ConnectScrobbler.Lib.Publish
import ConnectScrobbler.Lib.Transfer
import ConnectScrobbler.Lib.Reassembly
import ConnectScrobbler.Lib.Decoder
import ConnectScrobbler.Lib.Incremental
import ConnectScrobbler.Lib.Framed
import ConnectScrobbler.Lib.Forward
import ConnectScrobbler.Lib.Numbered
import ConnectScrobbler.Lib.FileSystem
import ConnectScrobbler.Lib.ReadSeek
import ConnectScrobbler.Lib.Cipher
import ConnectScrobbler.Lib.Shannon
import ConnectScrobbler.Lib.Mac
import ConnectScrobbler.Lib.Sha1
import ConnectScrobbler.Lib.Chain
import ConnectScrobbler.Lib.Pbkdf2
import ConnectScrobbler.Lib.Aes
import ConnectScrobbler.Lib.Base64
import ConnectScrobbler.Core.Util.Seq
import ConnectScrobbler.Core.Util.Powm
import ConnectScrobbler.Core.Util.StrChunks
import ConnectScrobbler.Core.Util.Subfile
import ConnectScrobbler.Core.Util.Int128
import ConnectScrobbler.Core.Util.Int128.Mul
import ConnectScrobbler.Core.Util.SpotifyId
import ConnectScrobbler.Core.Util.SpotifyId.Numerals
import ConnectScrobbler.Core.Util.SpotifyId.Codec
import ConnectScrobbler.Core.Authentication
import ConnectScrobbler.Core.Authentication.Blob
import ConnectScrobbler.Core.DiffieHellman
import ConnectScrobbler.Core.Connection.Codec
import ConnectScrobbler.Core.Connection.Stream
import ConnectScrobbler.Core.Connection.Hostile
import ConnectScrobbler.Core.Connection.Transport
import ConnectScrobbler.Core.Connection.Authenticate
import ConnectScrobbler.Core.Connection.Handshake
import ConnectScrobbler.Core.Connection.Receive
import ConnectScrobbler.Core.Connection.Transcript
import ConnectScrobbler.Core.Connection.Agreement
import ConnectScrobbler.Core.Mercury.Types
import ConnectScrobbler.Core.Mercury
import ConnectScrobbler.Core.Mercury.Packet
import ConnectScrobbler.Core.Mercury.Entries
import ConnectScrobbler.Core.Mercury.Reassembly
import ConnectScrobbler.Core.Mercury.Threads
import ConnectScrobbler.Core.Mercury.Correlation
import ConnectScrobbler.Core.Mercury.Streams
import ConnectScrobbler.Core.Mercury.Subscription
import ConnectScrobbler.Core.Mercury.Events
import ConnectScrobbler.Core.Mercury.Delivery
import ConnectScrobbler.Core.Mercury.Answers
import ConnectScrobbler.Core.Mercury.Sender
import ConnectScrobbler.Core.Mercury.Sender.Failures
import ConnectScrobbler.Core.AudioKey
import ConnectScrobbler.Core.Channel
import ConnectScrobbler.Core.Channel.Allocate
import ConnectScrobbler.Core.Channel.Stream
import ConnectScrobbler.Core.Channel.Split
import ConnectScrobbler.Core.Channel.Events
import ConnectScrobbler.Core.Session
import ConnectScrobbler.Core.Session.Robust
import ConnectScrobbler.Core.Session.Task
import ConnectScrobbler.Core.Session.Sends
import ConnectScrobbler.Core.Session.Refinement
import ConnectScrobbler.Core.Session.Login
import ConnectScrobbler.Core.Lengths
import ConnectScrobbler.Core.Mercury.Framing
import ConnectScrobbler.Core.Mercury.Served
import ConnectScrobbler.Metadata
import ConnectScrobbler.Metadata.Sound
import ConnectScrobbler.Metadata.Available
import ConnectScrobbler.Core.Authentication.Stored
import ConnectScrobbler.Core.Cache
import ConnectScrobbler.Core.Cache.Store
import ConnectScrobbler.Metadata.Cover
import ConnectScrobbler.Metadata.Cover.Served
import ConnectScrobbler.Core.AudioKey.Request
import ConnectScrobbler.Core.AudioKey.Served
import ConnectScrobbler.Core.Session.Components
import ConnectScrobbler.Scrobbler
import ConnectScrobbler.Scrobbler.Play
import ConnectScrobbler.Scrobbler.Simulation
import ConnectScrobbler.Scrobbler.Guarantees
import ConnectScrobbler.Scrobbler.Recovery
import ConnectScrobbler.Scrobbler.Quiet
import ConnectScrobbler.Scrobbler.Lookup
import ConnectScrobbler.Scrobbler.Fetches
import ConnectScrobbler.Spirc.Types
import ConnectScrobbler.Spirc
import ConnectScrobbler.Spirc.Frames
import ConnectScrobbler.Spirc.Replay
import ConnectScrobbler.Spirc.Turns
import ConnectScrobbler.Spirc.Talk
import ConnectScrobbler.Spirc.Trace
import ConnectScrobbler.Spirc.Heard
import ConnectScrobbler.Main
import ConnectScrobbler.Main.Interrupts
import ConnectScrobbler.Main.Device
import ConnectScrobbler.Main.Scrobbles
import ConnectScrobbler.Main.Ends
import ConnectScrobbler.Main.Restarts
