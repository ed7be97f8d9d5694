/-!
# Binary search

* `bisect`: the search for an element by a comparison that rises along a list.
* `partitionPoint`: the same for a property that holds up to some element.
-/

namespace SwitchMib
set_option autoImplicit false

variable {α : Type}

/-- Where the search among the `size` elements from `base` on ends. An element that compares equal
does not end it early. -/
def narrow (f : α → Ordering) (l : List α) (base size : Nat) (hbound : base + size ≤ l.length)
    (hsize : 0 < size) : Fin l.length :=
  if hmore : 1 < size then
    have hmid : base + size / 2 < l.length := by omega
    if f l[base + size / 2] = .gt then
      narrow f l base (size - size / 2) (by omega) (by omega)
    else
      narrow f l (base + size / 2) (size - size / 2) (by omega) (by omega)
  else
    ⟨base, by omega⟩
termination_by size

/-- The position of an element that compares equal, or else the one where it would have to be put
in. -/
def bisect (f : α → Ordering) (l : List α) : Except Nat Nat :=
  if hsize : 0 < l.length then
    let i := narrow f l 0 l.length (by omega) hsize
    match f l[i] with
    | .lt => .error (i + 1)
    | .eq => .ok i
    | .gt => .error i
  else
    .error 0

/-- How many elements at the start have a property that no later one has. -/
def partitionPoint (p : α → Bool) (l : List α) : Nat :=
  match bisect (fun a => if p a then .lt else .gt) l with
  | .ok i => i
  | .error i => i

end SwitchMib
