import ConnectScrobbler.Lib.Bytes
import ConnectScrobbler.Lib.Overflow

/-! Requests and responses of `core/src/mercury/types.rs`. The protobuf messages
are known by the fields that are used; how they are written and parsed is a
parameter. -/
namespace ConnectScrobbler

/-- `protocol::mercury::Header`. -/
structure Header where
  uri : Option String
  content_type : Option String
  method : Option String
  status_code : Option Int
  deriving DecidableEq, Repr

namespace Header

def new : Header := ⟨none, none, none, none⟩
def get_uri (h : Header) : String := h.uri.getD ""
def get_status_code (h : Header) : Int := h.status_code.getD 0

end Header

structure Subscription where
  uri : Option String
  deriving DecidableEq, Repr

def Subscription.take_uri (sub : Subscription) : String := sub.uri.getD ""

/-- Writing and parsing the messages; no message is a parse error. -/
structure Protobuf where
  write_header : Header → Bytes
  compute_size : Header → Nat
  parse_header : Bytes → Option Header
  parse_subscription : Bytes → Option Subscription

inductive MercuryMethod where
  | GET | SUB | UNSUB | SEND
  deriving DecidableEq, Repr

namespace MercuryMethod

def to_string : MercuryMethod → String
  | GET => "GET"
  | SUB => "SUB"
  | UNSUB => "UNSUB"
  | SEND => "SEND"

def command : MercuryMethod → UInt8
  | GET | SEND => 0xb2
  | SUB => 0xb3
  | UNSUB => 0xb4

end MercuryMethod

structure MercuryRequest where
  method : MercuryMethod
  uri : String
  content_type : Option String
  payload : List Bytes
  deriving DecidableEq, Repr

structure MercuryResponse where
  uri : String
  status_code : Int
  payload : List Bytes
  deriving DecidableEq, Repr

structure MercuryError where
  deriving DecidableEq, Repr

namespace MercuryRequest

def as_u16 (n : Nat) : BitVec 16 := BitVec.ofNat 16 n

def write_u16 (n : BitVec 16) : Bytes := Bytes.be 2 n.toNat

def header (req : MercuryRequest) : Header :=
  let header := { Header.new with uri := some req.uri, method := some req.method.to_string }
  match req.content_type with
  | some content_type => { header with content_type := some content_type }
  | none => header

/-- The part count is a 16-bit sum, the only thing that can fail. -/
def encode (build : Build) (protobuf : Protobuf) (req : MercuryRequest) (seq : Bytes) :
    Option Bytes := do
  let packet := write_u16 (as_u16 seq.length) ++ seq ++ [1]
  let count ← build.add 1 (as_u16 req.payload.length)
  let packet := packet ++ write_u16 count
  let packet := packet ++ write_u16 (as_u16 (protobuf.compute_size req.header)) ++
    protobuf.write_header req.header
  return req.payload.foldl (fun packet p => packet ++ write_u16 (as_u16 p.length) ++ p) packet

end MercuryRequest

end ConnectScrobbler
