import LinkShelf.Operation
import LinkShelf.Storage.Entries

/-!
Keyed maps: values that carry their own keys, in a state that may refuse a change. One map keeps its
entries in memory and is as reliable as it is told to be.
-/

namespace LinkShelf

/-- Values that have keys, and how they are told apart. -/
class Keyed (V : Type) (K : outParam Type) where
  key : V → K
  same : V → V → Bool

/-- A state that holds values by their keys. -/
class KeyedMap (σ : Type) (K V : outParam Type) where
  value? : σ → K → Option V
  values : σ → List V
  /-- Put a value under its own key. -/
  add : V → Operation σ Unit
  /-- Take the value under a key away. -/
  remove : K → Operation σ (Option V)
  /-- Take an equal value away. -/
  removeSame : V → Operation σ (Option V)

/-- Entries in memory. Either change may be refused for some keys. -/
structure MemoryMap (K V : Type) where
  entries : Entries K V
  addRefused : K → Bool
  removeRefused : K → Bool

namespace MemoryMap

variable {K V : Type} [DecidableEq K] [Keyed V K]

/-- A map of some values that refuses nothing. -/
def ofValues (values : List V) : MemoryMap K V :=
  ⟨values.foldl (fun entries v => entries.put (Keyed.key v) v) [], fun _ => false, fun _ => false⟩

/-- A value put under its own key, whatever is refused. -/
def insert (m : MemoryMap K V) (v : V) : MemoryMap K V :=
  { m with entries := m.entries.put (Keyed.key v) v }

def erase (m : MemoryMap K V) (key : K) : MemoryMap K V :=
  { m with entries := m.entries.drop key }

instance : KeyedMap (MemoryMap K V) K V where
  value? m := m.entries.value?
  values m := m.entries.values
  add v := do
    let m ← Operation.current
    if m.addRefused (Keyed.key v) then throw (.file (.device "disk full"))
    Operation.change fun m => m.insert v
  remove key := do
    let m ← Operation.current
    if m.removeRefused key then throw (.file (.device "read-only file system"))
    Operation.change fun m => m.erase key
    return m.entries.value? key
  removeSame v := do
    let m ← Operation.current
    match m.entries.find? fun e => Keyed.same e.2 v with
    | none => return none
    | some (key, found) =>
      Operation.change fun m => m.erase key
      return some found

end MemoryMap

end LinkShelf
