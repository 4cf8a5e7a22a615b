import ConnectScrobbler.Core.Authentication
import ConnectScrobbler.Core.Session
import ConnectScrobbler.Lib.Base64
import ConnectScrobbler.Lib.FileSystem
import ConnectScrobbler.Lib.Json

/-! Credentials in a file, and those that the program starts with, `core/src/authentication.rs`. -/
namespace ConnectScrobbler

/-- What is written of the credentials, with the numbers of the types and base 64. -/
structure Written where
  username : String
  auth_type : Int
  auth_data : String
  deriving DecidableEq, Repr

/-- What is used of other crates: `serde_json` reads back what it has written, and `base64`
decodes what it has encoded. -/
structure Crates where
  to_string : Written → String
  from_str : String → Option Written
  base64_encode : Bytes → String
  base64_decode : String → Option Bytes
  from_str_to_string : ∀ written, from_str (to_string written) = some written
  base64_decode_encode : ∀ data, base64_decode (base64_encode data) = some data

namespace Written

open JsonText

def text (written : Written) : List Char :=
  "\x7b\x22username\x22:".toList ++ (quoted written.username ++
    (",\x22auth_type\x22:".toList ++ (number written.auth_type ++
      (",\x22auth_data\x22:".toList ++ (quoted written.auth_data ++ "\x7d".toList)))))

/-- Reads no other texts than those that are written. -/
def of_text (text : List Char) : Option Written := do
  let text ← after "\x7b\x22username\x22:" text
  let (username, text) ← read_quoted text
  let text ← after ",\x22auth_type\x22:" text
  let (auth_type, text) := read_number text
  let text ← after ",\x22auth_data\x22:" text
  let (auth_data, text) ← read_quoted text
  if text = "\x7d".toList then some { username, auth_type, auth_data } else none

theorem of_text_text (written : Written) : of_text written.text = some written := by
  have number_ends : ∀ rest, ∀ c ∈ (",\x22auth_data\x22:".toList ++ rest).head?, c.isDigit = false := by
    intro rest
    have head : (",\x22auth_data\x22:".toList ++ rest).head? = some ',' := by simp
    rw [head]
    rintro c ⟨⟩
    rfl
  unfold of_text text
  simp only [after_append, read_quoted_append, read_number_append _ (number_ends _), Option.bind_eq_bind,
    Option.bind_some, if_true]

end Written

/-- Texts as `serde_json` writes them, and base 64 with its padding. -/
def Crates.plain : Crates where
  to_string written := String.ofList written.text
  from_str text := Written.of_text text.toList
  base64_encode := Base64.encode
  base64_decode := Base64.decode
  from_str_to_string written := by rw [String.toList_ofList, Written.of_text_text]
  base64_decode_encode := Base64.decode_encode

namespace Credentials

variable (crates : Crates)

def serialize (cred : Credentials) : Written :=
  ⟨cred.username, cred.auth_type.value, crates.base64_encode cred.auth_data⟩

/-- Another type, or data that is not base 64, is an error of the parser. -/
def deserialize (written : Written) : Option Credentials := do
  let auth_type ← AuthenticationType.from_i32 written.auth_type
  let auth_data ← crates.base64_decode written.auth_data
  return { username := written.username, auth_type, auth_data }

/-- What a file of credentials has in it. -/
def contents (cred : Credentials) : Bytes := as_bytes (crates.to_string (cred.serialize crates))

/-- `from_reader`; what cannot be read or parsed is a panic. -/
def from_reader (file : Node) : Disk Credentials := do
  let data ← Disk.unwrap file.read_to_end
  let contents ← Disk.expect (Session.from_utf8 data)
  Disk.expect ((crates.from_str contents).bind (deserialize crates))

def from_file (path : PathBuf) : Disk (Option Credentials) := do
  match ← Disk.read fun fs => (fs.open_ path).toOption with
  | some file => do
    let cred ← from_reader crates file
    return some cred
  | none => return none

def save_to_file (path : PathBuf) (cred : Credentials) : Disk Unit := do
  Disk.unwrap (← Disk.change fun fs => fs.create path)
  Disk.write path (cred.contents crates)

def with_password (username password : String) : Credentials :=
  ⟨username, .AUTHENTICATION_USER_PASS, as_bytes password⟩

end Credentials

/-- `typed` is what the user types in when asked for the password; a panic if it cannot be read. -/
def get_credentials (typed : String → Option String) (username password : Option String)
    (cached_credentials : Option Credentials) : Option (Option Credentials) :=
  match username, password, cached_credentials with
  | some username, some password, _ => some (some (.with_password username password))
  | some username, none, some credentials =>
    if username = credentials.username then some (some credentials)
    else (typed username).map fun password => some (.with_password username password)
  | some username, none, none =>
    (typed username).map fun password => some (.with_password username password)
  | none, _, some credentials => some (some credentials)
  | none, _, none => some none

/-! Reading back. -/

theorem from_utf8_as_bytes (s : String) : Session.from_utf8 (as_bytes s) = some s := by
  have whole : (⟨(as_bytes s).toArray⟩ : ByteArray) = s.toByteArray := by
    rw [← String.utf8Encode_toList]
    apply ByteArray.ext
    rw [List.utf8Encode, List.data_toByteArray]
    rfl
  rw [Session.from_utf8, whole, String.fromUTF8?, dif_pos s.isValidUTF8]
  rfl

namespace AuthenticationType

theorem from_i32_value (t : AuthenticationType) : from_i32 t.value = some t := by
  cases t <;> rfl

end AuthenticationType

namespace Credentials

theorem deserialize_serialize (crates : Crates) (cred : Credentials) :
    deserialize crates (cred.serialize crates) = some cred := by
  simp [serialize, deserialize, AuthenticationType.from_i32_value, crates.base64_decode_encode]

/-- What has been saved is read back. -/
theorem from_reader_saved (crates : Crates) (cred : Credentials) (fs : FileSystem) :
    from_reader crates (.file (cred.contents crates)) fs = (fs, some cred) := by
  have opened : Disk.unwrap (Node.file (cred.contents crates)).read_to_end fs =
      (fs, some (cred.contents crates)) := rfl
  have contents : Disk.expect (Session.from_utf8 (cred.contents crates)) fs =
      (fs, some (crates.to_string (cred.serialize crates))) := by
    rw [contents, from_utf8_as_bytes]
    rfl
  rw [from_reader, Disk.bind_returns opened, Disk.bind_returns contents, crates.from_str_to_string,
    Option.bind_some, deserialize_serialize]
  rfl

end Credentials

end ConnectScrobbler
