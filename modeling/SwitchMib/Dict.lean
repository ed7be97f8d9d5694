import SwitchMib.KeyOrder

/-!
# Finite maps in key order

A `Dict` is a finite map kept as the list of its bindings in strictly increasing key order. The
order is part of the type, so two dictionaries with the same bindings are equal and the list of
bindings is the walk order.

* `Dict.insert`, `Dict.insertNew`, `Dict.erase`, `Dict.get?`: the map operations.
* `Dict.ofList`: a whole list of bindings at once, a later binding replacing an earlier one.
* `Dict.merge`: the bindings of two maps, those of the second winning.
* `Dict.above?`: the least key strictly above a given one.
-/

namespace SwitchMib
set_option autoImplicit false

/-- Bindings in strictly increasing key order. -/
def Bindings.Sorted {κ ν : Type} [KeyOrder κ] (l : List (κ × ν)) : Prop :=
  l.Pairwise fun a b => KeyOrder.before a.1 b.1 = true

/-- A finite map from `κ` to `ν`. -/
structure Dict (κ ν : Type) [KeyOrder κ] where
  /-- The bindings, in key order. -/
  toList : List (κ × ν)
  sorted : Bindings.Sorted toList

namespace Bindings

variable {κ ν : Type} [KeyOrder κ]

/-- Puts a binding at its place, replacing one with the same key. -/
def insert (k : κ) (v : ν) : List (κ × ν) → List (κ × ν)
  | [] => [(k, v)]
  | (k', v') :: rest =>
    if KeyOrder.before k k' then (k, v) :: (k', v') :: rest
    else if KeyOrder.before k' k then (k', v') :: insert k v rest
    else (k, v) :: rest

def lookup (k : κ) : List (κ × ν) → Option ν
  | [] => none
  | (k', v) :: rest => if KeyOrder.same k k' then some v else lookup k rest

theorem mem_insert {k : κ} {v : ν} {p : κ × ν} :
    ∀ {l : List (κ × ν)}, p ∈ insert k v l → p = (k, v) ∨ p ∈ l
  | [], h => by simpa [insert] using h
  | (k', v') :: rest, h => by
    unfold insert at h
    split at h
    · simpa using h
    · split at h
      · rcases List.mem_cons.1 h with h | h
        · exact Or.inr (by simp [h])
        · rcases mem_insert h with h | h
          · exact Or.inl h
          · exact Or.inr (by simp [h])
      · rcases List.mem_cons.1 h with h | h
        · exact Or.inl h
        · exact Or.inr (by simp [h])

theorem Sorted.insert {k : κ} {v : ν} : ∀ {l : List (κ × ν)}, Sorted l → Sorted (insert k v l)
  | [], _ => by simp [Bindings.insert, Sorted]
  | (k', v') :: rest, h => by
    have h' := List.pairwise_cons.1 h
    unfold Bindings.insert
    split
    · rename_i hk
      refine List.pairwise_cons.2 ⟨fun p hp => ?_, h⟩
      rcases List.mem_cons.1 hp with rfl | hp
      · exact hk
      · exact KeyOrder.trans hk (h'.1 p hp)
    · rename_i hk
      split
      · rename_i hk'
        refine List.pairwise_cons.2 ⟨fun p hp => ?_, Sorted.insert h'.2⟩
        rcases mem_insert hp with rfl | hp
        · exact hk'
        · exact h'.1 p hp
      · rename_i hk'
        have hkk : k = k' := KeyOrder.connex (by simpa using hk) (by simpa using hk')
        subst hkk
        exact List.pairwise_cons.2 ⟨fun p hp => h'.1 p hp, h'.2⟩

end Bindings

namespace Dict

variable {κ ν : Type} [KeyOrder κ]

theorem ext {a b : Dict κ ν} (h : a.toList = b.toList) : a = b := by
  cases a; cases b; simp_all

instance [DecidableEq κ] [DecidableEq ν] : DecidableEq (Dict κ ν) := fun a b =>
  decidable_of_iff (a.toList = b.toList) ⟨ext, fun h => h ▸ rfl⟩

/-- The map without bindings. -/
def empty : Dict κ ν := ⟨[], List.Pairwise.nil⟩

instance : Inhabited (Dict κ ν) := ⟨empty⟩

def get? (d : Dict κ ν) (k : κ) : Option ν := Bindings.lookup k d.toList

/-- Whether a key is bound. -/
def contains (d : Dict κ ν) (k : κ) : Bool := (d.get? k).isSome

/-- Binds a key, replacing its former value. -/
def insert (d : Dict κ ν) (k : κ) (v : ν) : Dict κ ν :=
  ⟨Bindings.insert k v d.toList, d.sorted.insert⟩

/-- Binds a key unless it is bound already. -/
def insertNew (d : Dict κ ν) (k : κ) (v : ν) : Dict κ ν :=
  if d.contains k then d else d.insert k v

def erase (d : Dict κ ν) (k : κ) : Dict κ ν :=
  ⟨d.toList.filter fun p => !KeyOrder.same k p.1, d.sorted.filter _⟩

/-- Keys in order. -/
def keys (d : Dict κ ν) : List κ := d.toList.map (·.1)

/-- Values in the order of their keys. -/
def values (d : Dict κ ν) : List ν := d.toList.map (·.2)

def size (d : Dict κ ν) : Nat := d.toList.length

/-- Whether there is no binding. -/
def isEmpty (d : Dict κ ν) : Bool := d.toList.isEmpty

/-- All bindings of a list; of several with one key the last counts. -/
def ofList : List (κ × ν) → Dict κ ν
  | [] => empty
  | (k, v) :: rest => (ofList rest).insertNew k v

/-- Binds every binding of a list in turn. -/
def insertAll (d : Dict κ ν) (l : List (κ × ν)) : Dict κ ν :=
  l.foldl (fun d p => d.insert p.1 p.2) d

/-- The bindings of both maps, those of the second winning. -/
def merge (a b : Dict κ ν) : Dict κ ν := a.insertAll b.toList

/-- The least key strictly above a given one. -/
def above? (d : Dict κ ν) (k : κ) : Option κ := d.keys.find? fun k' => KeyOrder.before k k'

end Dict

end SwitchMib
