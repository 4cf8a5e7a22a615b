import ConnectScrobbler.Core.Cache

/-! The cache keeps what it is given, whatever is done with it and however often the program is started. -/
namespace ConnectScrobbler

variable {crates : Crates} {cache : Cache} {fs : FileSystem} {store : Store}

section Mkdir

variable {path : PathBuf}

theorem mkdir_existing_there (there : fs path ≠ none) : mkdir_existing path fs = (fs, some (.ok ())) := by
  obtain ⟨node, there⟩ := Option.ne_none_iff_exists'.mp there
  have refused : Disk.change (fun fs => fs.create_dir path) fs = (fs, some (.error .AlreadyExists)) := by
    rw [Disk.change, FileSystem.create_dir, there]
  rw [mkdir_existing, Disk.bind_returns refused]
  rfl

theorem mkdir_existing_new (free : fs path = none) (parent : fs path.dropLast = some .dir) :
    mkdir_existing path fs = (Function.update fs path (some .dir), some (.ok ())) := by
  have made : Disk.change (fun fs => fs.create_dir path) fs =
      (Function.update fs path (some .dir), some (.ok ())) := by
    simp only [Disk.change, FileSystem.create_dir, free, FileSystem.enter, parent]
  rw [mkdir_existing, Disk.bind_returns made]
  rfl

end Mkdir

/-- What there is on the disk of a store, below the directory of the cache. -/
inductive Kept (crates : Crates) (cache : Cache) (store : Store) (path : PathBuf) : Node → Prop where
  | root (here : path = cache.root) : Kept crates cache store path .dir
  | files_dir (here : path = cache.root ++ ["files"]) : Kept crates cache store path .dir
  | credentials {cred : Credentials} (here : path = cache.credentials_path)
    (saved : store.credentials = some cred) : Kept crates cache store path (.file (cred.contents crates))
  | shelf {id : FileId} {data : Bytes} (here : path = cache.shelf id) (saved : store.files id = some data) :
    Kept crates cache store path .dir
  | file {id : FileId} {data : Bytes} (here : path = cache.file_path id)
    (saved : store.files id = some data) : Kept crates cache store path (.file data)

/-- Every path below the directory of the cache has what there is of the store, and the others nothing. -/
def Holds (crates : Crates) (cache : Cache) (fs : FileSystem) (store : Store) : Prop :=
  ∀ path, cache.root <+: path → ∀ node, fs path = some node ↔ Kept crates cache store path node

/-- Nothing changes outside of the directory of the cache. -/
def Within (cache : Cache) (fs fs' : FileSystem) : Prop := ∀ path, ¬ cache.root <+: path → fs' path = fs path

theorem Within.refl (cache : Cache) (fs : FileSystem) : Within cache fs fs := fun _ _ => rfl

theorem Within.trans {fs' fs'' : FileSystem} (first : Within cache fs fs') (second : Within cache fs' fs'') :
    Within cache fs fs'' := fun path outside => (second path outside).trans (first path outside)

theorem Within.update (cache : Cache) (fs : FileSystem) (below : PathBuf) (node : Option Node) :
    Within cache fs (Function.update fs (cache.root ++ below) node) := by
  intro path outside
  apply Function.update_of_ne
  rintro rfl
  exact outside (List.prefix_append _ _)

/-- Another place below the directory of the cache. -/
theorem update_apart {node : Option Node} {path other one two : PathBuf} (there : path = cache.root ++ one)
    (here : other = cache.root ++ two) (apart : two ≠ one) : Function.update fs path node other = fs other := by
  apply Function.update_of_ne
  rw [there, here]
  exact fun same => apart (List.append_cancel_left same)

theorem root_below (cache : Cache) : cache.root = cache.root ++ [] := (List.append_nil _).symm

namespace Kept

variable {store' : Store} {path : PathBuf} {node : Node} {id : FileId}

theorem credentials_iff : Kept crates cache store cache.credentials_path node ↔
    ∃ cred, store.credentials = some cred ∧ .file (cred.contents crates) = node := by
  constructor
  · intro kept
    cases kept with
    | root here => simp [Cache.credentials_path] at here
    | files_dir here => simp [Cache.credentials_path] at here
    | credentials here saved => exact ⟨_, saved, rfl⟩
    | shelf here saved => simp [Cache.credentials_path, Cache.shelf] at here
    | file here saved => simp [Cache.credentials_path, Cache.file_path] at here
  · rintro ⟨cred, saved, rfl⟩
    exact .credentials rfl saved

theorem shelf_dir (kept : Kept crates cache store (cache.shelf id) node) : node = .dir := by
  cases kept with
  | root here => rfl
  | files_dir here => rfl
  | credentials here saved => simp [Cache.credentials_path, Cache.shelf] at here
  | shelf here saved => rfl
  | file here saved => simp [Cache.shelf, Cache.file_path] at here

theorem file_iff : Kept crates cache store (cache.file_path id) node ↔
    ∃ data, store.files id = some data ∧ .file data = node := by
  constructor
  · intro kept
    cases kept with
    | root here => simp [Cache.file_path] at here
    | files_dir here => simp [Cache.file_path] at here
    | credentials here saved => simp [Cache.credentials_path, Cache.file_path] at here
    | shelf here saved => simp [Cache.shelf, Cache.file_path] at here
    | file here saved =>
      cases Cache.file_path_inj here
      exact ⟨_, saved, rfl⟩
  · rintro ⟨data, saved, rfl⟩
    exact .file rfl saved

theorem empty_iff : Kept crates cache .empty path node ↔
    (path = cache.root ∨ path = cache.root ++ ["files"]) ∧ node = .dir := by
  constructor
  · intro kept
    cases kept with
    | root here => exact ⟨.inl here, rfl⟩
    | files_dir here => exact ⟨.inr here, rfl⟩
    | credentials here saved => cases saved
    | shelf here saved => cases saved
    | file here saved => cases saved
  · rintro ⟨here | here, rfl⟩
    · exact .root here
    · exact .files_dir here

/-- Credentials are in no other file than their own. -/
theorem other_credentials (files : store'.files = store.files) (elsewhere : path ≠ cache.credentials_path)
    (kept : Kept crates cache store path node) : Kept crates cache store' path node := by
  cases kept with
  | root here => exact .root here
  | files_dir here => exact .files_dir here
  | credentials here saved => exact absurd here elsewhere
  | shelf here saved => exact .shelf here (by rw [files, saved])
  | file here saved => exact .file here (by rw [files, saved])

/-- A file is nowhere else than on its shelf. -/
theorem other_file (credentials : store'.credentials = store.credentials)
    (files : ∀ other, other ≠ id → store'.files other = store.files other)
    (off_shelf : path ≠ cache.shelf id) (elsewhere : path ≠ cache.file_path id)
    (kept : Kept crates cache store path node) : Kept crates cache store' path node := by
  cases kept with
  | root here => exact .root here
  | files_dir here => exact .files_dir here
  | credentials here saved => exact .credentials here (by rw [credentials, saved])
  | shelf here saved =>
    refine .shelf here ((files _ ?_).trans saved)
    rintro rfl
    exact off_shelf here
  | file here saved =>
    refine .file here ((files _ ?_).trans saved)
    rintro rfl
    exact elsewhere here

end Kept

namespace Holds

theorem root (holds : Holds crates cache fs store) : fs cache.root = some .dir :=
  (holds _ (List.prefix_refl _) _).mpr (.root rfl)

theorem files_dir (holds : Holds crates cache fs store) : fs (cache.root ++ ["files"]) = some .dir :=
  (holds _ (List.prefix_append _ _) _).mpr (.files_dir rfl)

theorem credentials (holds : Holds crates cache fs store) :
    fs cache.credentials_path = store.credentials.map fun cred => .file (cred.contents crates) := by
  apply Option.ext
  intro node
  rw [Option.map_eq_some_iff]
  exact (holds _ (List.prefix_append _ _) node).trans Kept.credentials_iff

theorem shelves (holds : Holds crates cache fs store) (id : FileId) (data : Bytes) :
    fs (cache.shelf id) ≠ some (.file data) := by
  intro there
  cases Kept.shelf_dir ((holds _ (List.prefix_append _ _) _).mp there)

theorem files (holds : Holds crates cache fs store) (id : FileId) :
    fs (cache.file_path id) = (store.files id).map .file := by
  apply Option.ext
  intro node
  rw [Option.map_eq_some_iff]
  exact (holds _ (List.prefix_append _ _) node).trans Kept.file_iff

/-- Whether files are kept is nothing to the disk. -/
theorem same_root (cache' : Cache) (holds : Holds crates cache fs store)
    (same : cache'.root = cache.root) :
    Holds crates cache' fs store := by
  obtain ⟨location, use_audio_cache⟩ := cache
  obtain ⟨location', use_audio_cache'⟩ := cache'
  cases same
  intro path below node
  rw [holds path below node]
  constructor <;> intro kept
  all_goals
    cases kept with
    | root here => exact .root here
    | files_dir here => exact .files_dir here
    | credentials here saved => exact .credentials here saved
    | shelf here saved => exact .shelf here saved
    | file here saved => exact .file here saved

theorem save_credentials (holds : Holds crates cache fs store) (cred : Credentials) :
    Holds crates cache (Function.update fs cache.credentials_path (some (.file (cred.contents crates))))
      { store with credentials := some cred } := by
  intro path below node
  by_cases here : path = cache.credentials_path
  · subst here
    rw [Function.update_self, Kept.credentials_iff]
    simp
  · rw [Function.update_of_ne here, holds path below node]
    exact ⟨Kept.other_credentials rfl here, Kept.other_credentials rfl here⟩

/-- The shelf of a file is made with it, where it is not there yet. -/
theorem save_file (holds : Holds crates cache fs store) (id : FileId) (data : Bytes) :
    Holds crates cache (Function.update (Function.update fs (cache.shelf id) (some .dir)) (cache.file_path id)
        (some (.file data)))
      { store with files := Function.update store.files id (some data) } := by
  intro path below node
  have saved : Function.update store.files id (some data) id = some data := Function.update_self ..
  by_cases here : path = cache.file_path id
  · subst here
    rw [Function.update_self, Kept.file_iff]
    simp
  rw [Function.update_of_ne here]
  by_cases on_shelf : path = cache.shelf id
  · subst on_shelf
    rw [Function.update_self, Option.some_inj]
    constructor
    · rintro rfl
      exact .shelf rfl saved
    · exact fun kept => kept.shelf_dir.symm
  · rw [Function.update_of_ne on_shelf, holds path below node]
    constructor
    · exact Kept.other_file rfl (fun other apart => Function.update_of_ne apart ..) on_shelf here
    · exact Kept.other_file rfl (fun other apart => (Function.update_of_ne apart ..).symm) on_shelf here

end Holds

theorem on_disk_save_credentials (holds : Holds crates cache fs store) (cred : Credentials) :
    cache.save_credentials crates cred fs = (Function.update fs cache.credentials_path
      (some (.file (cred.contents crates))), some ()) := by
  have ready : fs cache.credentials_path ≠ some .dir := by
    rw [holds.credentials]
    cases store.credentials <;> simp
  have within : fs cache.credentials_path.dropLast = some .dir := by
    rw [Cache.credentials_path, List.dropLast_concat]
    exact holds.root
  obtain ⟨fs', created, written⟩ :=
    FileSystem.create_write (cred.contents crates) ready fun _ => within
  have changed : Disk.change (fun fs => fs.create cache.credentials_path) fs = (fs', some (.ok ())) := by
    simp only [Disk.change, created]
  rw [Cache.save_credentials, Credentials.save_to_file, Disk.bind_returns changed, ← written]
  rfl

theorem on_disk_credentials (holds : Holds crates cache fs store) :
    cache.credentials crates fs = (fs, some store.credentials) := by
  have opened : Disk.read (fun fs => (fs.open_ cache.credentials_path).toOption) fs =
      (fs, some (store.credentials.map fun cred => .file (cred.contents crates))) := by
    simp only [Disk.read, FileSystem.open_, holds.credentials]
    cases store.credentials <;> rfl
  rw [Cache.credentials, Credentials.from_file, Disk.bind_returns opened]
  cases store.credentials with
  | none => rfl
  | some cred =>
    dsimp only [Option.map_some]
    rw [Disk.bind_returns (Credentials.from_reader_saved crates cred fs)]
    rfl

theorem on_disk_file (holds : Holds crates cache fs store) (id : FileId) :
    cache.file id fs = (fs, some ((store.files id).map .file)) := by
  simp only [Cache.file, Disk.read, FileSystem.open_, holds.files]
  cases store.files id <;> rfl

theorem make_shelf (holds : Holds crates cache fs store) (id : FileId) :
    mkdir_existing (cache.shelf id) fs =
      (Function.update fs (cache.shelf id) (some .dir), some (.ok ())) := by
  cases there : fs (cache.shelf id) with
  | none =>
    apply mkdir_existing_new there
    rw [Cache.shelf, List.dropLast_append_of_ne_nil (by simp)]
    exact holds.files_dir
  | some node =>
    cases node with
    | dir =>
      rw [mkdir_existing_there (by simp [there]), ← there, Function.update_eq_self]
    | file data => exact absurd there (holds.shelves id data)

theorem on_disk_save_file (holds : Holds crates cache fs store) (id : FileId) (contents : Reader)
    (flag : cache.use_audio_cache = true) :
    cache.save_file id contents fs =
      (Function.update (Function.update fs (cache.shelf id) (some .dir)) (cache.file_path id)
        (some (.file contents.data)), if contents.fails then none else some ()) := by
  have apart : Function.update fs (cache.shelf id) (some .dir) (cache.file_path id) = fs (cache.file_path id) :=
    update_apart rfl rfl (by simp)
  have ready : Function.update fs (cache.shelf id) (some .dir) (cache.file_path id) ≠ some .dir := by
    rw [apart, holds.files]
    cases store.files id <;> simp
  have within : Function.update fs (cache.shelf id) (some .dir) (cache.file_path id).dropLast = some .dir := by
    rw [Cache.parent_file_path, Function.update_self]
  obtain ⟨fs', created, written⟩ := FileSystem.create_write contents.data ready fun _ => within
  have changed : Disk.change (fun fs => fs.create (cache.file_path id))
      (Function.update fs (cache.shelf id) (some .dir)) = (fs', some (.ok ())) := by
    simp only [Disk.change, created]
  have put : Disk.write (cache.file_path id) contents.data fs' =
      (Function.update (Function.update fs (cache.shelf id) (some .dir)) (cache.file_path id)
        (some (.file contents.data)), some ()) := by
    rw [Disk.write, written]
  simp only [Cache.save_file, flag, if_true, Cache.parent_file_path]
  rw [Disk.bind_returns (make_shelf holds id), Disk.bind_returns rfl, Disk.bind_returns changed,
    Disk.bind_returns rfl, Disk.bind_returns put]
  cases contents.fails <;> rfl

/-- A start on a directory that is there. -/
theorem on_disk_new (holds : Holds crates cache fs store) (use_audio_cache : Bool) :
    Cache.new cache.root use_audio_cache fs = (fs, some ⟨cache.root, use_audio_cache⟩) := by
  have root_there : fs cache.root ≠ none := by simp [holds.root]
  have files_there : fs (cache.root ++ ["files"]) ≠ none := by simp [holds.files_dir]
  rw [Cache.new, Disk.bind_returns (mkdir_existing_there root_there), Disk.bind_returns rfl,
    Disk.bind_returns (mkdir_existing_there files_there), Disk.bind_returns rfl]
  rfl

/-- The first start, where nothing is yet. -/
theorem on_disk_new_first (crates : Crates) (cache : Cache) (parent : fs cache.root.dropLast = some .dir)
    (nothing : ∀ below, fs (cache.root ++ below) = none) (use_audio_cache : Bool) :
    ∃ fs', Cache.new cache.root use_audio_cache fs = (fs', some ⟨cache.root, use_audio_cache⟩) ∧
      Holds crates cache fs' .empty ∧ Within cache fs fs' := by
  have free : fs cache.root = none := by
    rw [root_below]
    exact nothing []
  have free_files : Function.update fs cache.root (some .dir) (cache.root ++ ["files"]) = none :=
    (update_apart (root_below cache) rfl (by simp)).trans (nothing _)
  have within : Function.update fs cache.root (some .dir) (cache.root ++ ["files"]).dropLast = some .dir := by
    rw [List.dropLast_concat, Function.update_self]
  have apart : ∀ below, below ≠ [] → below ≠ ["files"] →
      Function.update (Function.update fs cache.root (some .dir)) (cache.root ++ ["files"]) (some .dir)
        (cache.root ++ below) = none := by
    intro below not_root not_files
    rw [update_apart rfl rfl not_files, update_apart (root_below cache) rfl not_root]
    exact nothing below
  refine ⟨Function.update (Function.update fs cache.root (some .dir)) (cache.root ++ ["files"]) (some .dir),
    ?_, ?_, ?_⟩
  · rw [Cache.new, Disk.bind_returns (mkdir_existing_new free parent), Disk.bind_returns rfl,
      Disk.bind_returns (mkdir_existing_new free_files within), Disk.bind_returns rfl]
    rfl
  · rintro path ⟨below, rfl⟩ node
    rw [Kept.empty_iff]
    by_cases at_root : below = []
    · subst at_root
      rw [List.append_nil, update_apart rfl (root_below cache) (by simp), Function.update_self]
      simp [eq_comm]
    by_cases at_files : below = ["files"]
    · subst at_files
      rw [Function.update_self]
      simp [eq_comm]
    · rw [apart below at_root at_files]
      simp [at_root, at_files]
  · have made : Within cache fs (Function.update fs cache.root (some .dir)) := by
      have update := Within.update cache fs [] (some .dir)
      rwa [List.append_nil] at update
    exact made.trans (Within.update cache _ _ _)

/-- Every operation does to the disk what it does to the store. -/
theorem on_disk_refines (holds : Holds crates cache fs store) (op : CacheOp) :
    ∃ fs', op.on_disk crates cache fs = (fs', (store.step cache.use_audio_cache op).2) ∧
      Holds crates cache fs' (store.step cache.use_audio_cache op).1 ∧ Within cache fs fs' := by
  cases op with
  | new use_audio_cache =>
    refine ⟨fs, ?_, holds, Within.refl cache fs⟩
    rw [CacheOp.on_disk, Disk.bind_returns (on_disk_new holds use_audio_cache)]
    rfl
  | credentials =>
    refine ⟨fs, ?_, holds, Within.refl cache fs⟩
    rw [CacheOp.on_disk, Disk.bind_returns (on_disk_credentials holds)]
    rfl
  | save_credentials cred =>
    refine ⟨_, ?_, holds.save_credentials cred, Within.update cache fs _ _⟩
    rw [CacheOp.on_disk, Disk.bind_returns (on_disk_save_credentials holds cred)]
    rfl
  | file id =>
    refine ⟨fs, ?_, holds, Within.refl cache fs⟩
    rw [CacheOp.on_disk, Disk.bind_returns (on_disk_file holds id)]
    rfl
  | save_file id contents =>
    by_cases flag : cache.use_audio_cache = true
    · have saved := on_disk_save_file holds id contents flag
      simp only [Store.step, flag, if_true]
      refine ⟨_, ?_, holds.save_file id contents.data,
        (Within.update cache fs _ _).trans (Within.update cache _ _ _)⟩
      cases failing : contents.fails with
      | false =>
        rw [failing] at saved
        rw [CacheOp.on_disk, Disk.bind_returns saved]
        rfl
      | true =>
        rw [failing] at saved
        rw [CacheOp.on_disk, Disk.bind_panics saved]
        rfl
    · simp only [Store.step, flag]
      refine ⟨fs, ?_, holds, Within.refl cache fs⟩
      have unsaved : cache.save_file id contents fs = (fs, some ()) := by
        simp only [Cache.save_file, flag]
        rfl
      rw [CacheOp.on_disk, Disk.bind_returns unsaved]
      rfl

theorem cache_run_refines (ops : List CacheOp) (holds : Holds crates cache fs store) :
    ∃ fs', cache_run crates cache fs ops = (fs', (store.run cache.use_audio_cache ops).2) ∧
      Holds crates cache fs' (store.run cache.use_audio_cache ops).1 ∧ Within cache fs fs' := by
  induction ops generalizing cache fs store with
  | nil => exact ⟨fs, rfl, holds, Within.refl cache fs⟩
  | cons op ops ih =>
    obtain ⟨fs₁, done, holds₁, within₁⟩ := on_disk_refines holds op
    obtain ⟨fs₂, ran, holds₂, within₂⟩ := ih (holds₁.same_root (op.after cache) rfl)
    refine ⟨fs₂, ?_, holds₂.same_root cache rfl, within₁.trans within₂⟩
    simp only [cache_run, done, ran]
    rfl

/-- The program is started where no cache is yet, and then anything is done, other starts among it. What
it gets is what it has given last, of every file and of the credentials, and nothing of it is elsewhere
than in the directory of the cache. -/
theorem cache_keeps (crates : Crates) (cache : Cache) (fs : FileSystem)
    (parent : fs cache.root.dropLast = some .dir) (nothing : ∀ below, fs (cache.root ++ below) = none) (use_audio_cache : Bool) (ops : List CacheOp) :
    ∃ fs', cache_run crates cache fs (.new use_audio_cache :: ops) =
        (fs', some .done :: (Store.empty.run use_audio_cache ops).2) ∧
      Holds crates cache fs' (Store.empty.run use_audio_cache ops).1 ∧ Within cache fs fs' := by
  obtain ⟨fs₁, made, holds₁, within₁⟩ := on_disk_new_first crates cache parent nothing use_audio_cache
  have started : (CacheOp.new use_audio_cache).on_disk crates cache fs = (fs₁, some .done) := by
    rw [CacheOp.on_disk, Disk.bind_returns made]
    rfl
  obtain ⟨fs₂, ran, holds₂, within₂⟩ := cache_run_refines ops
    (holds₁.same_root ((CacheOp.new use_audio_cache).after cache) rfl)
  refine ⟨fs₂, ?_, holds₂.same_root cache rfl, within₁.trans within₂⟩
  simp only [cache_run, started, ran]
  rfl

/-- Two files and the credentials, where one of the files cannot be read to its end. -/
theorem cache_keeps_two :
    let one : FileId := ⟨List.replicate 20 0, rfl⟩
    let other : FileId := ⟨List.replicate 20 0x2a, rfl⟩
    let cred := Credentials.with_password "user" "secret"
    (cache_run .plain ⟨["home", "cache"], false⟩ (fun path => if path = ["home"] then some .dir else none)
      [.new true, .save_credentials cred, .save_file one ⟨[1, 2], false⟩, .save_file other ⟨[3], true⟩,
        .new false, .save_file one ⟨[4], false⟩, .file one, .file other, .credentials]).2 =
      [some .done, some .done, some .done, none, some .done, some .done, some (.file (some (.file [1, 2]))),
        some (.file (some (.file [3]))), some (.credentials (some cred))] := by
  intro one other cred
  obtain ⟨fs', ran, _⟩ := cache_keeps .plain ⟨["home", "cache"], false⟩
    (fun path => if path = ["home"] then some .dir else none) rfl (fun below => by simp) true
    [.save_credentials cred, .save_file one ⟨[1, 2], false⟩, .save_file other ⟨[3], true⟩,
      .new false, .save_file one ⟨[4], false⟩, .file one, .file other, .credentials]
  rw [ran]
  rfl

end ConnectScrobbler
