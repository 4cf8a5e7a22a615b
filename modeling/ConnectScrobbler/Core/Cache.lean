import ConnectScrobbler.Core.Authentication.Stored
import ConnectScrobbler.Metadata

/-! The cache on the disk, `core/src/cache/mod.rs`, over which the program may be started again and
again. It is a store of credentials and of files by their ids. -/
namespace ConnectScrobbler

/-- `{:02x}`. -/
def lower_hex (byte : UInt8) : List Char :=
  let digit (n : Nat) := Char.ofNat (BASE16_DIGITS.getD n 0).toNat
  [digit (byte.toNat / 16), digit (byte.toNat % 16)]

def FileId.to_base16 (id : FileId) : String := String.ofList (id.bytes.flatMap lower_hex)

def mkdir_existing (path : PathBuf) : Disk (Except ErrorKind Unit) := do
  match ← Disk.change fun fs => fs.create_dir path with
  | .error .AlreadyExists => return .ok ()
  | result => return result

structure Cache where
  root : PathBuf
  use_audio_cache : Bool
  deriving DecidableEq, Repr

namespace Cache

def new (location : PathBuf) (use_audio_cache : Bool) : Disk Cache := do
  Disk.unwrap (← mkdir_existing location)
  Disk.unwrap (← mkdir_existing (location ++ ["files"]))
  return ⟨location, use_audio_cache⟩

def credentials_path (cache : Cache) : PathBuf := cache.root ++ ["credentials.json"]

def credentials (crates : Crates) (cache : Cache) : Disk (Option Credentials) :=
  Credentials.from_file crates cache.credentials_path

def save_credentials (crates : Crates) (cred : Credentials) (cache : Cache) : Disk Unit :=
  Credentials.save_to_file crates cache.credentials_path cred

def file_path (file : FileId) (cache : Cache) : PathBuf :=
  let name := file.to_base16.toList
  cache.root ++ ["files", String.ofList (name.take 2), String.ofList (name.drop 2)]

def file (file : FileId) (cache : Cache) : Disk (Option Node) :=
  Disk.read fun fs => (fs.open_ (cache.file_path file)).toOption

/-- What a reader gave before it failed has been copied. -/
def save_file (file : FileId) (contents : Reader) (cache : Cache) : Disk Unit :=
  if cache.use_audio_cache then do
    let path := cache.file_path file
    Disk.unwrap (← mkdir_existing path.dropLast)
    Disk.unwrap (← Disk.change fun fs => fs.create path)
    Disk.write path contents.data
    if contents.fails then Disk.panic else return ()
  else return ()

end Cache

/-! What is done with a cache at one location. Each start of the program makes the cache anew. -/

inductive CacheOp where
  | new (use_audio_cache : Bool)
  | credentials
  | save_credentials (cred : Credentials)
  | file (id : FileId)
  | save_file (id : FileId) (contents : Reader)
  deriving DecidableEq

inductive CacheResult where
  | done
  | credentials (cred : Option Credentials)
  | file (contents : Option Node)
  deriving DecidableEq, Repr

namespace CacheOp

def on_disk (crates : Crates) (cache : Cache) : CacheOp → Disk CacheResult
  | .new use_audio_cache => do
    let _ ← Cache.new cache.root use_audio_cache
    return .done
  | .credentials => do
    let cred ← cache.credentials crates
    return .credentials cred
  | .save_credentials cred => do
    cache.save_credentials crates cred
    return .done
  | .file id => do
    let contents ← cache.file id
    return .file contents
  | .save_file id contents => do
    cache.save_file id contents
    return .done

/-- Whether files are kept after it. -/
def uses (use_audio_cache : Bool) : CacheOp → Bool
  | .new use_audio_cache => use_audio_cache
  | .credentials | .save_credentials _ | .file _ | .save_file _ _ => use_audio_cache

/-- The cache that the program has after it. -/
def after (cache : Cache) (op : CacheOp) : Cache :=
  { cache with use_audio_cache := op.uses cache.use_audio_cache }

end CacheOp

/-- A panic ends the program, but what it has done to the disk stays, and it may be started again. -/
def cache_run (crates : Crates) (cache : Cache) (fs : FileSystem) :
    List CacheOp → FileSystem × List (Option CacheResult)
  | [] => (fs, [])
  | op :: ops =>
    let (fs, result) := op.on_disk crates cache fs
    let (fs, results) := cache_run crates (op.after cache) fs ops
    (fs, result :: results)

/-- What the cache is for. -/
structure Store where
  credentials : Option Credentials
  files : FileId → Option Bytes

namespace Store

def empty : Store := ⟨none, fun _ => none⟩

/-- Reading from a reader that fails is a panic, but keeps what there was. -/
def step (use_audio_cache : Bool) (store : Store) : CacheOp → Store × Option CacheResult
  | .new _ => (store, some .done)
  | .credentials => (store, some (.credentials store.credentials))
  | .save_credentials cred => ({ store with credentials := some cred }, some .done)
  | .file id => (store, some (.file ((store.files id).map .file)))
  | .save_file id contents =>
    if use_audio_cache then
      ({ store with files := Function.update store.files id (some contents.data) },
        if contents.fails then none else some .done)
    else (store, some .done)

def run (use_audio_cache : Bool) (store : Store) : List CacheOp → Store × List (Option CacheResult)
  | [] => (store, [])
  | op :: ops =>
    let (store, result) := store.step use_audio_cache op
    let (store, results) := run (op.uses use_audio_cache) store ops
    (store, result :: results)

end Store

/-! Different files have different paths. -/

theorem lower_hex_inj {a b : UInt8} (same : lower_hex a = lower_hex b) : a = b := by
  have digits : ∀ m < 16, ∀ n < 16, Char.ofNat (BASE16_DIGITS.getD m 0).toNat =
      Char.ofNat (BASE16_DIGITS.getD n 0).toNat → m = n := by decide +kernel
  have small := a.toNat_lt
  have small' := b.toNat_lt
  rw [lower_hex, lower_hex] at same
  simp only [List.cons.injEq, and_true] at same
  have high := digits _ (by omega) _ (by omega) same.1
  have low := digits _ (by omega) _ (by omega) same.2
  apply UInt8.toNat_inj.mp
  omega

theorem lower_hex_bytes_inj {as bs : Bytes} (same : as.flatMap lower_hex = bs.flatMap lower_hex) :
    as = bs := by
  induction as generalizing bs with
  | nil =>
    cases bs with
    | nil => rfl
    | cons b bs => simp [lower_hex] at same
  | cons a as ih =>
    cases bs with
    | nil => simp [lower_hex] at same
    | cons b bs =>
      rw [List.flatMap_cons, List.flatMap_cons] at same
      obtain ⟨first, rest⟩ := List.append_inj same rfl
      rw [lower_hex_inj first, ih rest]

theorem FileId.to_base16_inj {one other : FileId} (same : one.to_base16.toList = other.to_base16.toList) :
    one = other := by
  obtain ⟨bytes, length⟩ := one
  obtain ⟨bytes', length'⟩ := other
  rw [to_base16, to_base16, String.toList_ofList, String.toList_ofList] at same
  have bytes_same := lower_hex_bytes_inj same
  subst bytes_same
  rfl

namespace Cache

variable {cache : Cache} {file other : FileId}

theorem file_path_inj (same : cache.file_path file = cache.file_path other) : file = other := by
  rw [file_path, file_path] at same
  have names := List.append_cancel_left same
  simp only [List.cons.injEq, and_true, true_and] at names
  apply FileId.to_base16_inj
  have front := congrArg String.toList names.1
  have back := congrArg String.toList names.2
  rw [String.toList_ofList, String.toList_ofList] at front back
  rw [← List.take_append_drop 2 file.to_base16.toList, front, back, List.take_append_drop]

/-- The directory of a file. -/
def shelf (file : FileId) (cache : Cache) : PathBuf :=
  cache.root ++ ["files", String.ofList (file.to_base16.toList.take 2)]

theorem parent_file_path : (cache.file_path file).dropLast = cache.shelf file := by
  rw [file_path, List.dropLast_append_of_ne_nil (by simp)]
  rfl

end Cache

end ConnectScrobbler
