import SwitchMib.Proofs.Mib.Cells

/-!
# What is shown of the power supplies

The table polls the supplies one by one. A supply that cannot be asked leaves a place without a
value, so every place shows what was answered about the supply of its number and about no other.

* `shownCode`: the code of a supply by what is answered about it.
* `value_pollAll`: the states of all supplies, each at its place.
* `Visits`: the places that a table goes through, followed to the end.
* `Power.polled_refresh`: the table after a refresh.
-/

namespace SwitchMib.Mib
set_option autoImplicit false

open Snmp

/-! ## The states of the supplies -/

/-- The code of a supply by what is answered when it is asked whether it is present and whether it
works. A supply that is not present is not asked whether it works. -/
def shownCode (presence status : Except AgentError Bool) : Option Int32 :=
  match presence, status with
  | .ok false, _ => some 8
  | .ok true, .ok true => some 2
  | .ok true, .ok false => some 7
  | .ok true, .error _ => none
  | .error _, _ => none

theorem code_poll (source : PowerSource) (i : Nat) :
    (source.poll i).toOption.map PsuStatus.code =
      shownCode (source.presence i) (source.status i) := by
  rw [PowerSource.poll]
  cases source.presence i with
  | error e => rfl
  | ok present =>
    cases present with
    | false => rfl
    | true =>
      cases source.status i with
      | error e => rfl
      | ok ok => cases ok <;> rfl

theorem value_pollOne (source : PowerSource) (i : Nat) :
    (pollOne source i).value = (source.poll i).toOption := by
  rw [pollOne]
  cases source.poll i <;> rfl

/-- The number of supplies that are polled. -/
def countOf (source : PowerSource) : Nat := (countSupplies source).value

theorem countOf_of_ok {source : PowerSource} {count : UInt32} (h : source.count = .ok count) :
    countOf source = count.toNat := by
  rw [countOf, countSupplies, h]
  rfl

theorem countOf_of_error {source : PowerSource} {e : AgentError} (h : source.count = .error e) :
    countOf source = 0 := by
  rw [countOf, countSupplies, h]
  rfl

theorem value_pollAll (source : PowerSource) :
    (pollAll source).value =
      (List.range' 1 (countOf source)).map fun i => (source.poll i).toOption := by
  rw [pollAll, Logged.value_bind, Logged.value_mapM]
  simp only [value_pollOne]
  rfl

theorem getElem?_pollAll (source : PowerSource) {k : Nat} (hk : k < countOf source) :
    (pollAll source).value[k]? = some (source.poll (k + 1)).toOption := by
  rw [value_pollAll, List.getElem?_map, List.getElem?_range' hk, Option.map_some, Nat.one_mul,
    Nat.add_comm]

/-! ## Places in order -/

/-- Asked for the next place again and again from `sub` on, a table goes through `places` and then
has no more. -/
inductive Visits (next : SubId → Option SubId) : SubId → List SubId → Prop where
  | ended {sub : SubId} : next sub = none → Visits next sub []
  | went {sub place : SubId} {places : List SubId} :
      next sub = some place → Visits next place places → Visits next sub (place :: places)

namespace Power

/-- From the place that comes before number `first` on, the numbers from `first` are visited. -/
theorem visits_numbers {count : Nat} (hcount : count < UInt32.size) {first left : Nat}
    (hall : first + left = count + 1) {sub : SubId} (hsub : numberAfter sub = first) :
    Visits (nextNumber count) sub ((List.range' first left).map fun i => [UInt32.ofNat i]) := by
  induction left generalizing first sub with
  | zero =>
    refine Visits.ended ?_
    rw [nextNumber_eq, hsub, if_neg]
    omega
  | succ left ih =>
    have hword : (UInt32.ofNat first).toNat = first := UInt32.toNat_ofNat_of_lt' (by omega)
    have hnext : nextNumber count sub = some [UInt32.ofNat first] := by
      rw [nextNumber_eq, hsub, if_pos]
      omega
    have hafter : numberAfter [UInt32.ofNat first] = first + 1 := by rw [numberAfter, hword]
    have hlater : first + 1 + left = count + 1 := by omega
    rw [List.range'_succ, List.map_cons]
    exact Visits.went hnext (ih hlater hafter)

variable (out : Outside) (t : Power)

theorem current_refresh :
    (t.refresh out).value.after.cell.current = (pollAll (t.origin.source out)).value := rfl

theorem length_refresh :
    (t.refresh out).value.after.cell.current.length = countOf (t.origin.source out) := by
  rw [current_refresh, value_pollAll, List.length_map, List.length_range']

theorem valueAt_of_number {i : UInt32} (hlow : 1 ≤ i.toNat)
    (hhigh : i.toNat ≤ countOf (t.origin.source out)) :
    let source := t.origin.source out
    (t.refresh out).value.after.valueAt [i] =
      (shownCode (source.presence i.toNat) (source.status i.toNat)).map .integer := by
  intro source
  obtain ⟨k, hk⟩ : ∃ k, i.toNat = k + 1 := Nat.exists_eq_add_of_le' hlow
  have hplace : k + 1 ≤ countOf source := Nat.le_trans (Nat.le_of_eq hk.symm) hhigh
  have hstatus : statusOf (pollAll source).value i.toNat = (source.poll i.toNat).toOption := by
    rw [hk, statusOf, getElem?_pollAll source hplace, Option.join_some]
  rw [valueAt, current_refresh, hstatus, ← code_poll, Option.map_map]
  rfl

theorem valueAt_eq_none {sub : SubId} (h : ¬ ∃ i : UInt32, sub = [i] ∧ 1 ≤ i.toNat ∧
      i.toNat ≤ countOf (t.origin.source out)) :
    (t.refresh out).value.after.valueAt sub = none := by
  have hsize := length_pollAll_lt (t.origin.source out)
  cases hvalue : (t.refresh out).value.after.valueAt sub with
  | none => rfl
  | some v =>
    have hcell := mem_cells_of_value _ hsize hvalue
    obtain ⟨i, hsub, hlow, hhigh⟩ := (mem_cells_iff _ hsize).1 hcell
    rw [length_refresh] at hhigh
    exact absurd ⟨i, hsub, hlow, hhigh⟩ h

/-- A refresh never fails. If the number of supplies can be read, the place of each of them shows
what was answered about it alone: 8 if it is not present, 2 or 7 if it is present and works or does
not, and nothing if it could not be asked. No other place has a value, and all places up to the
number are visited in order, those without a value too. If the number cannot be read, there are
none. Whatever becomes of the other supplies, a supply keeps its place and its value. -/
theorem polled_refresh :
    let source := t.origin.source out
    let u := (t.refresh out).value.after
    (t.refresh out).value.outcome = .ok () ∧
      (∀ count, source.count = .ok count →
        (∀ i : UInt32, 1 ≤ i.toNat → i.toNat ≤ count.toNat → u.valueAt [i] =
          (shownCode (source.presence i.toNat) (source.status i.toNat)).map .integer) ∧
        (∀ sub, (¬ ∃ i : UInt32, sub = [i] ∧ 1 ≤ i.toNat ∧ i.toNat ≤ count.toNat) →
          u.valueAt sub = none) ∧
        Visits u.next [] ((List.range' 1 count.toNat).map fun i => [UInt32.ofNat i])) ∧
      (∀ e, source.count = .error e → ∀ sub, u.valueAt sub = none ∧ u.next sub = none) ∧
      ∀ (out' : Outside) (t' : Power),
        let source' := t'.origin.source out'
        let u' := (t'.refresh out').value.after
        source'.count = source.count → (∀ sub, u'.next sub = u.next sub) ∧
          ∀ i : UInt32, source'.presence i.toNat = source.presence i.toNat →
            source'.status i.toNat = source.status i.toNat → u'.valueAt [i] = u.valueAt [i] := by
  intro source u
  have hnext : ∀ sub, u.next sub = nextNumber (countOf source) sub := fun sub =>
    congrArg (nextNumber · sub) (length_refresh out t)
  refine ⟨rfl, fun count hcount => ?_, fun e he => ?_, ?_⟩
  · have hpolled : countOf source = count.toNat := countOf_of_ok hcount
    refine ⟨fun i hlow hhigh => ?_, fun sub hsub => ?_, ?_⟩
    · exact valueAt_of_number out t hlow (hpolled ▸ hhigh)
    · exact valueAt_eq_none out t (hpolled ▸ hsub)
    · rw [show u.next = nextNumber count.toNat from funext fun sub => hpolled ▸ hnext sub]
      exact visits_numbers count.toNat_lt (Nat.add_comm 1 _) rfl
  · have hpolled : countOf source = 0 := countOf_of_error he
    refine fun sub => ⟨valueAt_eq_none out t ?_, ?_⟩
    · rintro ⟨i, -, hlow, hhigh⟩
      have hnone : i.toNat ≤ 0 := hpolled ▸ hhigh
      omega
    · rw [hnext, hpolled, nextNumber_eq, if_neg]
      cases sub <;> simp [numberAfter]
  · intro out' t' source' u' hsame
    have hpolled : countOf source' = countOf source := by
      simp only [countOf, countSupplies, hsame]
    refine ⟨fun sub => ?_, fun i hpresence hstatus => ?_⟩
    · rw [hnext, ← hpolled]
      exact congrArg (nextNumber · sub) (length_refresh out' t')
    · by_cases hi : 1 ≤ i.toNat ∧ i.toNat ≤ countOf source
      · rw [valueAt_of_number out t hi.1 hi.2,
          valueAt_of_number out' t' hi.1 (hpolled.symm ▸ hi.2), hpresence, hstatus]
      · have houtside : ¬ ∃ j : UInt32, [i] = [j] ∧ 1 ≤ j.toNat ∧ j.toNat ≤ countOf source := by
          rintro ⟨j, hj, hplace⟩
          obtain rfl := (List.cons.inj hj).1
          exact hi hplace
        rw [valueAt_eq_none out t houtside, valueAt_eq_none out' t' (hpolled.symm ▸ houtside)]

/-- A platform with four supplies: one that cannot be asked whether it works, one that is not
present, one that works, and one that cannot be asked at all. -/
def worldOfSupplies : Outside where
  namespaces := ⟨.empty "", []⟩
  neighbours := .ok ""
  platform :=
    { count := .ok 4
      presence := fun i =>
        if i = 2 then .ok false else if i = 4 then .error (.power (.stated "i2c")) else .ok true
      status := fun i => if i = 3 then .ok true else .error (.power (.stated "i2c timeout")) }

/-- The failures of the first and the last supply leave the values of the two between them at
their places. -/
theorem polled_refresh_of_four :
    let t : Power := ⟨.platform, .fresh []⟩
    let u := (t.refresh worldOfSupplies).value.after
    u.valueAt [1] = none ∧ u.valueAt [2] = some (.integer 8) ∧ u.valueAt [3] = some (.integer 2) ∧
      u.valueAt [4] = none ∧ u.valueAt [5] = none ∧ Visits u.next [] [[1], [2], [3], [4]] := by
  intro t u
  obtain ⟨-, hcounted, -, -⟩ := polled_refresh worldOfSupplies t
  obtain ⟨hvalues, houtside, hvisits⟩ := hcounted 4 rfl
  refine ⟨?_, ?_, ?_, ?_, ?_, hvisits⟩
  · exact hvalues 1 (by decide) (by decide)
  · exact hvalues 2 (by decide) (by decide)
  · exact hvalues 3 (by decide) (by decide)
  · exact hvalues 4 (by decide) (by decide)
  · refine houtside [5] ?_
    rintro ⟨i, hi, -, hhigh⟩
    obtain rfl := (List.cons.inj hi).1
    exact absurd hhigh (by decide)

end Power

end SwitchMib.Mib
