import ConnectScrobbler.Lib.Bytes
import Mathlib.Logic.Function.Basic

/-! A tree of directories and files, and programs that have it to themselves. A program that panics
leaves the tree as it is then. -/

abbrev PathBuf := List String

inductive Node where
  | dir
  | file (data : Bytes)
  deriving DecidableEq, Repr

abbrev FileSystem := PathBuf → Option Node

inductive ErrorKind where
  | NotFound | AlreadyExists | Other
  deriving DecidableEq, Repr

/-- What can be read, and whether reading fails in the end. -/
structure Reader where
  data : Bytes
  fails : Bool
  deriving DecidableEq, Repr

namespace FileSystem

variable {path : PathBuf}

/-- A new entry goes into a directory. -/
def enter (path : PathBuf) (node : Node) (fs : FileSystem) : Except ErrorKind FileSystem :=
  match fs path.dropLast with
  | some .dir => .ok (Function.update fs path (some node))
  | some (.file _) => .error .Other
  | none => .error .NotFound

def create_dir (path : PathBuf) (fs : FileSystem) : Except ErrorKind FileSystem :=
  match fs path with
  | some _ => .error .AlreadyExists
  | none => fs.enter path .dir

/-- A directory can be opened, but not read. -/
def open_ (path : PathBuf) (fs : FileSystem) : Except ErrorKind Node :=
  match fs path with
  | some node => .ok node
  | none => .error .NotFound

/-- `File::create`: what was in the file is gone. -/
def create (path : PathBuf) (fs : FileSystem) : Except ErrorKind FileSystem :=
  match fs path with
  | some .dir => .error .Other
  | some (.file _) => .ok (Function.update fs path (some (.file [])))
  | none => fs.enter path (.file [])

/-- What is written to a file that has been created goes behind what was written before. -/
def append (path : PathBuf) (data : Bytes) (fs : FileSystem) : FileSystem :=
  match fs path with
  | some (.file before) => Function.update fs path (some (.file (before ++ data)))
  | some .dir | none => fs

end FileSystem

def Node.read_to_end : Node → Except ErrorKind Bytes
  | .file data => .ok data
  | .dir => .error .Other

/-- A program on a tree; no value is a panic. -/
def Disk (α : Type) : Type := FileSystem → FileSystem × Option α

namespace Disk

variable {α β : Type}

def bind (x : Disk α) (f : α → Disk β) : Disk β := fun fs =>
  match x fs with
  | (fs, some a) => f a fs
  | (fs, none) => (fs, none)

instance : Monad Disk where
  pure a := fun fs => (fs, some a)
  bind := Disk.bind

def panic : Disk α := fun fs => (fs, none)

def unwrap (x : Except ErrorKind α) : Disk α := fun fs => (fs, x.toOption)

/-- Nothing is a panic. -/
def expect (x : Option α) : Disk α := fun fs => (fs, x)

def read (f : FileSystem → α) : Disk α := fun fs => (fs, some (f fs))

/-- The tree is changed, or there is an error. -/
def change (f : FileSystem → Except ErrorKind FileSystem) : Disk (Except ErrorKind Unit) := fun fs =>
  match f fs with
  | .ok fs => (fs, some (.ok ()))
  | .error e => (fs, some (.error e))

def write (path : PathBuf) (data : Bytes) : Disk Unit := fun fs => (fs.append path data, some ())

theorem bind_returns {x : Disk α} {f : α → Disk β} {fs fs' : FileSystem} {a : α}
    (returned : x fs = (fs', some a)) : (x >>= f) fs = f a fs' := by
  change Disk.bind x f fs = _
  rw [Disk.bind, returned]

theorem bind_panics {x : Disk α} {f : α → Disk β} {fs fs' : FileSystem} (panicked : x fs = (fs', none)) :
    (x >>= f) fs = (fs', none) := by
  change Disk.bind x f fs = _
  rw [Disk.bind, panicked]

@[simp] theorem pure_apply (a : α) (fs : FileSystem) : (pure a : Disk α) fs = (fs, some a) := rfl

end Disk

namespace FileSystem

variable {fs : FileSystem} {path : PathBuf}

/-- A new file holds what is written to it, and nothing else changes. -/
theorem create_write (data : Bytes) (ready : fs path ≠ some .dir)
    (within : fs path = none → fs path.dropLast = some .dir) :
    ∃ fs', fs.create path = .ok fs' ∧
      fs'.append path data = Function.update fs path (some (.file data)) := by
  refine ⟨Function.update fs path (some (.file [])), ?_, ?_⟩
  · unfold create
    cases there : fs path with
    | none =>
      dsimp only
      rw [enter, within there]
    | some node =>
      cases node with
      | dir => exact absurd there ready
      | file before => rfl
  · rw [append, Function.update_self]
    dsimp only
    rw [Function.update_idem, List.nil_append]

end FileSystem
