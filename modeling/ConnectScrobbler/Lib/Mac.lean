import ConnectScrobbler.Lib.Bytes

/-! Message authentication codes computed by an object that takes its input in
pieces, gives the code and can be reset to start again with the same key. -/

structure Mac (H : Type) where
  new : Bytes → H
  input : Bytes → H → H
  result : H → Bytes × H
  reset : H → H

namespace Mac

variable {H : Type}

/-- An object with this key that has been given these bytes since it was new or reset. -/
inductive Holds (mac : Mac H) (key : Bytes) : Bytes → H → Prop
  | new : Holds mac key [] (mac.new key)
  | input {given : Bytes} {s : H} (data : Bytes) :
      Holds mac key given s → Holds mac key (given ++ data) (mac.input data s)
  | reset {given : Bytes} {s : H} :
      Holds mac key given s → Holds mac key [] (mac.reset (mac.result s).2)

structure Computes (mac : Mac H) (hash : Bytes → Bytes → Bytes) (size : Nat) : Prop where
  results : ∀ key given s, Holds mac key given s → (mac.result s).1 = hash key given
  length : ∀ key given, (hash key given).length = size

def buffered (hash : Bytes → Bytes → Bytes) : Mac (Bytes × Bytes) where
  new key := (key, [])
  input data s := (s.1, s.2 ++ data)
  result s := (hash s.1 s.2, s)
  reset s := (s.1, [])

theorem buffered_holds {hash : Bytes → Bytes → Bytes} {key given : Bytes} {s : Bytes × Bytes}
    (holds : Holds (buffered hash) key given s) : s = (key, given) := by
  induction holds with
  | new => rfl
  | input data _ ih => rw [ih]; rfl
  | reset _ ih => rw [ih]; rfl

theorem buffered_computes {hash : Bytes → Bytes → Bytes} {size : Nat}
    (length : ∀ key given, (hash key given).length = size) :
    (buffered hash).Computes hash size := by
  refine ⟨fun key given s holds => ?_, length⟩
  rw [buffered_holds holds]
  rfl

end Mac
