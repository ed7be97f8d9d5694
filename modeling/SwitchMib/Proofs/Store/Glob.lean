import SwitchMib.Proofs.Order.Successor
import SwitchMib.Proofs.Text.Cuts
import SwitchMib.Store.Namespace

/-!
# Which keys a scan finds

* `Fits`: the keys of a pattern, told without the search for them.
* `globMatch_iff_fits`: the search finds just those.
* `fits_plain_lead_star_iff`: the keys of a lead without wildcards and a star.
* `Namespace.below`: what the keys that start with a lead say after it, and `mem_below_iff`: a scan
  finds all of them that have no line feed, even if the lead itself holds stars or question marks.
* `Namespace.keys_exact`: when a scan answers, and the keys that it finds.
-/

namespace SwitchMib
set_option autoImplicit false

namespace Store

/-- `Fits pattern key`: a star takes any run without a line feed, a question mark one character
that is none, and every other character itself. -/
inductive Fits : List Char → List Char → Prop
  | nil : Fits [] []
  | star {pattern run key : List Char} (hrun : '\n' ∉ run) (h : Fits pattern key) :
      Fits ('*' :: pattern) (run ++ key)
  | question {pattern key : List Char} {c : Char} (hc : c ≠ '\n') (h : Fits pattern key) :
      Fits ('?' :: pattern) (c :: key)
  | plain {pattern key : List Char} {c : Char} (hstar : c ≠ '*') (hquestion : c ≠ '?')
      (h : Fits pattern key) : Fits (c :: pattern) (c :: key)

theorem afterSomeRun_iff {test : List Char → Bool} {key : List Char} :
    afterSomeRun test key = true ↔
      ∃ run rest, key = run ++ rest ∧ '\n' ∉ run ∧ test rest = true := by
  induction key with
  | nil =>
    constructor
    · exact fun h => ⟨[], [], rfl, by simp, h⟩
    · rintro ⟨run, rest, hkey, -, h⟩
      rw [(List.append_eq_nil_iff.1 hkey.symm).2] at h
      exact h
  | cons c key ih =>
    rw [afterSomeRun, Bool.or_eq_true, Bool.and_eq_true, ih, bne_iff_ne]
    constructor
    · rintro (h | ⟨hc, run, rest, rfl, hrun, h⟩)
      · exact ⟨[], c :: key, rfl, by simp, h⟩
      · refine ⟨c :: run, rest, rfl, ?_, h⟩
        simp [hrun, hc.symm]
    · rintro ⟨run, rest, hkey, hrun, h⟩
      cases run with
      | nil =>
        left
        rwa [hkey]
      | cons d run =>
        obtain ⟨rfl, rfl⟩ := List.cons.inj hkey
        rw [List.mem_cons, not_or] at hrun
        exact Or.inr ⟨Ne.symm hrun.1, run, rest, rfl, hrun.2, h⟩

theorem fits_of_globMatch {pattern key : List Char} (h : globMatch pattern key = true) :
    Fits pattern key := by
  induction pattern generalizing key with
  | nil =>
    rw [globMatch, List.isEmpty_iff] at h
    rw [h]
    exact .nil
  | cons p pattern ih =>
    unfold globMatch at h
    split at h
    · cases ‹p :: pattern = []›
    · cases ‹p :: pattern = _›
      obtain ⟨run, rest, rfl, hrun, hrest⟩ := afterSomeRun_iff.1 h
      exact .star hrun (ih hrest)
    · cases ‹p :: pattern = _›
      rw [Bool.and_eq_true, bne_iff_ne] at h
      exact .question h.1 (ih h.2)
    · rename_i hstar hquestion heq
      cases heq
      rw [Bool.and_eq_true, beq_iff_eq] at h
      obtain ⟨rfl, h⟩ := h
      exact .plain hstar hquestion (ih h)
    · cases h

theorem globMatch_of_fits {pattern key : List Char} (h : Fits pattern key) :
    globMatch pattern key = true := by
  induction h with
  | nil => rfl
  | star hrun _ ih => exact afterSomeRun_iff.2 ⟨_, _, rfl, hrun, ih⟩
  | question hc _ ih => simp [globMatch, hc, ih]
  | plain hstar hquestion _ ih => simp [globMatch, ih]

theorem globMatch_iff_fits {pattern key : List Char} :
    globMatch pattern key = true ↔ Fits pattern key := ⟨fits_of_globMatch, globMatch_of_fits⟩

/-! ## Patterns made of a lead and a star -/

theorem Fits.newline_not_mem {pattern key : List Char} (h : Fits pattern key)
    (hpattern : '\n' ∉ pattern) : '\n' ∉ key := by
  induction h with
  | nil => simp
  | star hrun _ ih =>
    rw [List.mem_cons, not_or] at hpattern
    simp [hrun, ih hpattern.2]
  | question hc _ ih =>
    rw [List.mem_cons, not_or] at hpattern
    simp [hc.symm, ih hpattern.2]
  | plain _ _ _ ih =>
    rw [List.mem_cons, not_or] at hpattern ⊢
    exact ⟨hpattern.1, ih hpattern.2⟩

theorem fits_lead_star {lead rest : List Char} (hlead : '\n' ∉ lead) (hrest : '\n' ∉ rest) :
    Fits (lead ++ ['*']) (lead ++ rest) := by
  induction lead with
  | nil =>
    have h := Fits.star hrest .nil
    rwa [List.append_nil] at h
  | cons c lead ih =>
    rw [List.mem_cons, not_or] at hlead
    have h := ih hlead.2
    -- a wildcard in the lead stands for itself, too
    by_cases hstar : c = '*'
    · subst hstar
      have hrun : '\n' ∉ ['*'] := by decide
      have hself : Fits ('*' :: (lead ++ ['*'])) (['*'] ++ (lead ++ rest)) := .star hrun h
      exact hself
    · by_cases hquestion : c = '?'
      · subst hquestion
        exact .question (by decide) h
      · exact .plain hstar hquestion h

theorem globMatch_lead_star_iff {lead rest : List Char} (hlead : '\n' ∉ lead) :
    globMatch (lead ++ ['*']) (lead ++ rest) = true ↔ '\n' ∉ rest := by
  rw [globMatch_iff_fits]
  constructor
  · intro h hmem
    have hpattern : '\n' ∉ lead ++ ['*'] := by simp [hlead]
    exact h.newline_not_mem hpattern (List.mem_append_right lead hmem)
  · exact fits_lead_star hlead

theorem fits_nil_iff {key : List Char} : Fits [] key ↔ key = [] := by
  constructor
  · rintro ⟨⟩
    rfl
  · rintro rfl
    exact .nil

theorem fits_plain_cons_iff {c : Char} (hstar : c ≠ '*') (hquestion : c ≠ '?')
    {pattern key : List Char} :
    Fits (c :: pattern) key ↔ ∃ rest, key = c :: rest ∧ Fits pattern rest := by
  constructor
  · intro h
    cases h with
    | star => exact absurd rfl hstar
    | question => exact absurd rfl hquestion
    | plain _ _ h => exact ⟨_, rfl, h⟩
  · rintro ⟨rest, rfl, h⟩
    exact .plain hstar hquestion h

/-- Without a wildcard in the lead, the lead may be any text, also one with a line feed. -/
theorem fits_plain_lead_star_iff {lead key : List Char} (hstar : '*' ∉ lead)
    (hquestion : '?' ∉ lead) :
    Fits (lead ++ ['*']) key ↔ ∃ rest, key = lead ++ rest ∧ '\n' ∉ rest := by
  induction lead generalizing key with
  | nil =>
    constructor
    · rintro (_ | ⟨hrun, h⟩ | _ | _)
      · rw [fits_nil_iff.1 h, List.append_nil]
        exact ⟨_, rfl, hrun⟩
      · contradiction
    · rintro ⟨rest, rfl, hrest⟩
      have hlead : '\n' ∉ ([] : List Char) := List.not_mem_nil
      exact fits_lead_star hlead hrest
  | cons c lead ih =>
    rw [List.mem_cons, not_or] at hstar hquestion
    rw [List.cons_append, fits_plain_cons_iff (Ne.symm hstar.1) (Ne.symm hquestion.1)]
    simp only [ih hstar.2 hquestion.2, List.cons_append]
    constructor
    · rintro ⟨_, rfl, rest, rfl, hrest⟩
      exact ⟨rest, rfl, hrest⟩
    · rintro ⟨rest, rfl, hrest⟩
      exact ⟨_, rfl, rest, rfl, hrest⟩

/-! ## Scans -/

namespace Namespace

variable (ns : Namespace) (db : Database)

/-- What the keys found by a scan for a lead say after it, in order. -/
def below (lead : String) : List String :=
  ((ns.tables db).keys.filter fun key => globMatch (lead ++ "*").toList key.toList).filterMap
    (Text.after? lead)

variable {ns db} in
theorem eq_of_keys_eq_ok {pattern : String} {keys : List String}
    (h : ns.keys db pattern = .ok keys) :
    keys = (ns.tables db).keys.filter fun key => globMatch pattern.toList key.toList := by
  unfold Namespace.keys at h
  cases hgate : ns.gate .keys db pattern with
  | error e =>
    rw [hgate] at h
    cases h
  | ok _ =>
    rw [hgate] at h
    exact (Except.ok.inj h).symm

theorem mem_below_iff {lead : String} (hlead : '\n' ∉ lead.toList) {rest : String} :
    rest ∈ ns.below db lead ↔ lead ++ rest ∈ (ns.tables db).keys ∧ '\n' ∉ rest.toList := by
  simp only [below, List.mem_filterMap, List.mem_filter, Text.after?_eq_some_iff]
  constructor
  · rintro ⟨key, ⟨hkey, hmatch⟩, rfl⟩
    simp only [String.toList_append] at hmatch
    exact ⟨hkey, (globMatch_lead_star_iff hlead).1 hmatch⟩
  · rintro ⟨hkey, hrest⟩
    refine ⟨lead ++ rest, ⟨hkey, ?_⟩, rfl⟩
    simp only [String.toList_append]
    exact (globMatch_lead_star_iff hlead).2 hrest

variable {ns db} in
theorem gate_eq_ok_iff {kind : ReadKind} {key : String} :
    ns.gate kind db key = .ok () ↔
      ns.reachable = true ∧ ∀ f ∈ ns.faults, f.hits kind db key = false := by
  unfold gate
  split
  · rename_i hfault
    obtain ⟨f, hf, hhits⟩ := List.any_eq_true.1 hfault
    refine iff_of_false (by simp) fun ⟨_, hnone⟩ => ?_
    rw [hnone f hf] at hhits
    cases hhits
  · rename_i hfault
    have hnone : ∀ f ∈ ns.faults, f.hits kind db key = false := by simpa using hfault
    cases ns.reachable with
    | false => simp
    | true => simpa using hnone

variable {ns db} in
theorem exists_keys_eq_ok_iff {pattern : String} :
    (∃ found, ns.keys db pattern = .ok found) ↔
      ns.reachable = true ∧ ∀ f ∈ ns.faults, f.hits .keys db pattern = false := by
  rw [← gate_eq_ok_iff]
  unfold Namespace.keys
  cases ns.gate .keys db pattern <;> simp [Except.map]

/-- A scan answers unless the namespace cannot be reached or the scan is one that fails. It finds,
in order and once each, just the keys that fit the pattern from end to end; where the pattern is a
lead without wildcards and a star, these are the keys that start with the lead and have no line feed
after it. -/
theorem keys_exact (pattern : String) :
    ((∃ found, ns.keys db pattern = .ok found) ↔
      ns.reachable = true ∧ ∀ f ∈ ns.faults, f.hits .keys db pattern = false) ∧
    ∀ found, ns.keys db pattern = .ok found →
      Ascending found ∧ found.Nodup ∧
      (∀ key, key ∈ found ↔
        key ∈ (ns.tables db).keys ∧ Fits pattern.toList key.toList) ∧
      ∀ lead, pattern = lead ++ "*" → '*' ∉ lead.toList → '?' ∉ lead.toList →
        ∀ key, key ∈ found ↔
          key ∈ (ns.tables db).keys ∧ ∃ rest, key = lead ++ rest ∧ '\n' ∉ rest.toList := by
  refine ⟨exists_keys_eq_ok_iff, fun found hfound => ?_⟩
  have hkeys := eq_of_keys_eq_ok hfound
  have hsorted : Ascending found := hkeys ▸ (ns.tables db).keys_ascending.filter _
  have hmem : ∀ key, key ∈ found ↔
      key ∈ (ns.tables db).keys ∧ Fits pattern.toList key.toList := by
    intro key
    rw [hkeys, List.mem_filter, globMatch_iff_fits]
  refine ⟨hsorted, hsorted.nodup, hmem, ?_⟩
  rintro lead rfl hstar hquestion key
  have hstarts : (∃ rest : List Char, key.toList = lead.toList ++ rest ∧ '\n' ∉ rest) ↔
      ∃ rest : String, key = lead ++ rest ∧ '\n' ∉ rest.toList := by
    constructor
    · rintro ⟨rest, hkey, hrest⟩
      refine ⟨.ofList rest, String.toList_inj.1 ?_, by simpa using hrest⟩
      simpa using hkey
    · rintro ⟨rest, rfl, hrest⟩
      exact ⟨rest.toList, String.toList_append, hrest⟩
  rw [hmem, String.toList_append, ← hstarts]
  exact and_congr_right fun _ => fits_plain_lead_star_iff hstar hquestion

/-- A namespace with an object under each of some keys. -/
def ofKeys (keys : List String) : Namespace :=
  keys.foldl (fun ns key => ns.setFields .appl key [("mtu", "9100")]) (.empty "")

/-- A point in the lead is a point, the lead stands at the start of the key, and a key that goes on
after a line feed is not found. -/
theorem keys_exact_of_dotted_lead :
    let ns := ofKeys ["P.1:b|c", "P.1:", "P01:a", "P.1:a\nb", "P.1", "xP.1:a", "P.1:a"]
    ∃ found, ns.keys .appl "P.1:*" = .ok found ∧ found = ["P.1:", "P.1:a", "P.1:b|c"] ∧
      '*' ∉ "P.1:".toList ∧ '?' ∉ "P.1:".toList ∧
      ("P.1:a" ∈ (ns.tables .appl).keys ∧
        ∃ rest, "P.1:a" = "P.1:" ++ rest ∧ '\n' ∉ rest.toList) ∧
      ¬ Fits "P.1:*".toList "P01:a".toList ∧ ¬ Fits "P.1:*".toList "P.1:a\nb".toList := by
  intro ns
  obtain ⟨hanswers, hexact⟩ := keys_exact ns .appl "P.1:*"
  obtain ⟨found, hfound⟩ := hanswers.2 ⟨by decide +kernel, by decide +kernel⟩
  obtain ⟨-, -, hfits, hlead⟩ := hexact found hfound
  have hkeys : ns.keys .appl "P.1:*" = .ok ["P.1:", "P.1:a", "P.1:b|c"] := by decide +kernel
  obtain rfl : found = ["P.1:", "P.1:a", "P.1:b|c"] :=
    Except.ok.inj (hfound.symm.trans hkeys)
  have hstar : '*' ∉ "P.1:".toList := by decide +kernel
  have hquestion : '?' ∉ "P.1:".toList := by decide +kernel
  have hstored : ∀ key ∈ ["P01:a", "P.1:a\nb"], key ∈ (ns.tables .appl).keys := by decide +kernel
  refine ⟨_, hfound, rfl, hstar, hquestion, ?_, fun h => ?_, fun h => ?_⟩
  · exact (hlead "P.1:" (by decide +kernel) hstar hquestion "P.1:a").1 (by simp)
  · exact absurd ((hfits "P01:a").2 ⟨hstored _ (by simp), h⟩) (by decide +kernel)
  · exact absurd ((hfits "P.1:a\nb").2 ⟨hstored _ (by simp), h⟩) (by decide +kernel)

end Namespace

end Store

end SwitchMib
