import Dlir.Cli.Cgroup
import Dlir.Framework.Machine

namespace Dlir.Cli

open Dlir.Collectives Dlir.Framework Dlir.Math

/-- One round of the fold in `parse_cpuset_count`. Only the addition to the count is a checked
operation. -/
def countGroup (profile : Profile) (count : Nat) (group : List Char) : OptionT (Except Panic) Nat := do
  let bounds ← OptionT.mk (.ok (cpusetBounds group))
  let size ← OptionT.lift (profile.word (bounds.2 - bounds.1 + 1))
  OptionT.mk (.ok (checkedAdd count size))

/-- `parse_cpuset_count` in a build with this profile. -/
def parseCpusetCountIn (profile : Profile) (value : String) : Except Panic (Option Nat) :=
  if trim value = "" then .ok none
  else ((value.toList.splitOn ',').foldlM (countGroup profile) 0).run

/-- Without overflow checks nothing panics. -/
theorem parseCpusetCountIn_release (value : String) :
    parseCpusetCountIn .release value = .ok (parseCpusetCount value) := by
  have hfold : ∀ (groups : List (List Char)) (count : Nat),
      (groups.foldlM (countGroup .release) count).run = .ok (groups.foldlM (fun count group => do
        let bounds ← cpusetBounds group
        checkedAdd count ((bounds.2 - bounds.1 + 1) % 2 ^ 64)) count) := by
    intro groups
    induction groups with
    | nil => exact fun count => rfl
    | cons group groups ih =>
      intro count
      rw [List.foldlM_cons, List.foldlM_cons, countGroup]
      cases hbounds : cpusetBounds group with
      | none => rfl
      | some bounds =>
        show (OptionT.mk (Except.ok (checkedAdd count _)) >>= _).run = Except.ok (checkedAdd count _ >>= _)
        cases checkedAdd count ((bounds.2 - bounds.1 + 1) % 2 ^ 64) with
        | none => rfl
        | some next => exact ih next
  unfold parseCpusetCountIn parseCpusetCount
  split_ifs with hblank
  · rfl
  · exact hfold _ 0

/-- The texts of one group: a number, or two with a dash between them, the first not above the
second. -/
def DenotesCpus (group : List Char) (first last : Nat) : Prop :=
  first ≤ last ∧ (parseU64 group = some first ∧ first = last ∨
    ∃ low high, group = low ++ '-' :: high ∧ parseU64 low = some first ∧ parseU64 high = some last)

/-- The groups denote this many CPUs, counted without a bound. -/
inductive DenotesCount : List (List Char) → Nat → Prop
  | nil : DenotesCount [] 0
  | cons {group : List Char} {groups : List (List Char)} {first last n : Nat} :
      DenotesCpus (trimMatches isWhiteSpace group) first last → DenotesCount groups n →
      DenotesCount (group :: groups) (last - first + 1 + n)

/-- What counting exactly means: nothing overflows, a count is that of the text, and a count that
needs more than 64 bits is not given. -/
def CountsExactly (value : String) : Prop :=
  (∃ r, parseCpusetCountIn .dev value = .ok r) ∧
  ∀ profile r, parseCpusetCountIn profile value = .ok r →
    (r = none ∨ ∃ n, r = some n ∧ DenotesCount (value.toList.splitOn ',') n) ∧
    ∀ n, DenotesCount (value.toList.splitOn ',') n → 2 ^ 64 ≤ n → r = none

/-- A group of all numbers of 64 bits stands behind groups that are counted. -/
def ReachesFullRange (value : String) : Prop :=
  ∃ before group after n, value.toList.splitOn ',' = before ++ group :: after ∧
    DenotesCount before n ∧ n < 2 ^ 64 ∧ DenotesCpus (trimMatches isWhiteSpace group) 0 (2 ^ 64 - 1)

section Groups

theorem dash_not_mem {s : List Char} {n : Nat} (h : parseU64 s = some n) : '-' ∉ s := by
  intro hmem
  unfold parseU64 at h
  by_cases hplus : s.head? = some '+'
  · simp only [if_pos hplus] at h
    split_ifs at h with hbad
    push Not at hbad
    have htail : '-' ∈ s.tail := by
      cases s with
      | nil => cases hmem
      | cons c s =>
        obtain rfl := Option.some.inj hplus
        simpa using hmem
    cases List.all_eq_true.mp hbad.2 '-' htail
  · simp only [if_neg hplus] at h
    split_ifs at h with hbad
    push Not at hbad
    cases List.all_eq_true.mp hbad.2 '-' hmem

theorem parseU64_lt {s : List Char} {n : Nat} (h : parseU64 s = some n) : n < 2 ^ 64 := by
  unfold parseU64 at h
  simp only at h
  split_ifs at h with hbad hlt
  all_goals (obtain rfl := Option.some.inj h; assumption)

theorem DenotesCpus.lt {group : List Char} {first last : Nat} (h : DenotesCpus group first last) :
    last < 2 ^ 64 := by
  obtain ⟨-, ⟨hfirst, rfl⟩ | ⟨low, high, -, -, hlast⟩⟩ := h
  · exact parseU64_lt hfirst
  · exact parseU64_lt hlast

/-- The bounds of a group are what it denotes. -/
theorem cpusetBounds_eq_some {group : List Char} {first last : Nat} :
    cpusetBounds group = some (first, last) ↔
      DenotesCpus (trimMatches isWhiteSpace group) first last := by
  generalize htext : trimMatches isWhiteSpace group = text
  unfold cpusetBounds
  rw [htext]
  constructor
  · intro h
    have hjoin : List.intercalate ['-'] (text.splitOn '-') = text := List.intercalate_splitOn '-'
    split at h
    · rename_i number hparts
      obtain ⟨n, hn, h⟩ := Option.bind_eq_some_iff.mp h
      obtain ⟨rfl, rfl⟩ := Prod.mk.inj (Option.some.inj h)
      rw [hparts] at hjoin
      obtain rfl : number = text := by simpa using hjoin
      exact ⟨le_rfl, .inl ⟨hn, rfl⟩⟩
    · rename_i low high hparts
      obtain ⟨a, ha, h⟩ := Option.bind_eq_some_iff.mp h
      obtain ⟨b, hb, h⟩ := Option.bind_eq_some_iff.mp h
      split_ifs at h with hlt
      obtain ⟨rfl, rfl⟩ := Prod.mk.inj (Option.some.inj h)
      rw [hparts] at hjoin
      have hsplit : text = low ++ '-' :: high := by
        simpa [List.intercalate_cons_cons] using hjoin.symm
      exact ⟨by omega, .inr ⟨low, high, hsplit, ha, hb⟩⟩
    · cases h
  · intro h
    obtain ⟨hle, ⟨hfirst, rfl⟩ | ⟨low, high, rfl, hlow, hhigh⟩⟩ := h
    · rw [List.splitOn_eq_singleton (dash_not_mem hfirst)]
      simp [hfirst]
    · rw [List.splitOn_append_cons_self_of_not_mem (dash_not_mem hlow),
        List.splitOn_eq_singleton (dash_not_mem hhigh)]
      simp [hlow, hhigh, hle]

/-- What one round does with a group that denotes a range. -/
theorem countGroup_of_denotes (profile : Profile) (count : Nat) {group : List Char}
    {first last : Nat} (h : DenotesCpus (trimMatches isWhiteSpace group) first last) :
    (countGroup profile count group).run =
      (profile.word (last - first + 1)).map fun size => checkedAdd count size := by
  rw [countGroup, cpusetBounds_eq_some.mpr h]
  show (OptionT.lift (profile.word (last - first + 1)) >>= fun size =>
    OptionT.mk (.ok (checkedAdd count size))).run = _
  cases profile.word (last - first + 1) <;> rfl

theorem DenotesCpus.unique {group : List Char} {first last first' last' : Nat}
    (h : DenotesCpus (trimMatches isWhiteSpace group) first last)
    (h' : DenotesCpus (trimMatches isWhiteSpace group) first' last') :
    first = first' ∧ last = last' := by
  rw [← cpusetBounds_eq_some] at h h'
  exact Prod.mk.inj (Option.some.inj (h.symm.trans h'))

theorem DenotesCount.unique {groups : List (List Char)} {n n' : Nat} (h : DenotesCount groups n)
    (h' : DenotesCount groups n') : n = n' := by
  induction h generalizing n' with
  | nil =>
    cases h'
    rfl
  | cons hgroup _ ih =>
    cases h' with
    | cons hgroup' hrest' =>
      obtain ⟨rfl, rfl⟩ := hgroup.unique hgroup'
      rw [ih hrest']

/-- The fold over the rest, when one round is done. -/
theorem foldlM_run {profile : Profile} {count : Nat} {group : List Char} {groups : List (List Char)}
    {r : Option Nat} (h : (countGroup profile count group).run = .ok r) :
    ((group :: groups).foldlM (countGroup profile) count).run =
      r.elim (.ok none) fun next => (groups.foldlM (countGroup profile) next).run := by
  rw [List.foldlM_cons, OptionT.run_bind, h]
  cases r <;> rfl

end Groups

section Fold

/-- No group of all numbers stands behind groups that the fold counts, beginning with `count`. -/
def NoFullRange (count : Nat) (groups : List (List Char)) : Prop :=
  ∀ before group after n, groups = before ++ group :: after → DenotesCount before n →
    count + n < 2 ^ 64 → ¬ DenotesCpus (trimMatches isWhiteSpace group) 0 (2 ^ 64 - 1)

variable {count : Nat} {group : List Char} {groups : List (List Char)} {first last : Nat}

/-- A group in front that is not the full range is counted, so what it counts does not overflow. -/
theorem NoFullRange.size_lt (h : NoFullRange count (group :: groups)) (hcount : count < 2 ^ 64)
    (hgroup : DenotesCpus (trimMatches isWhiteSpace group) first last) :
    last - first + 1 < 2 ^ 64 := by
  have hlast := hgroup.lt
  by_contra hsize
  have hfull : first = 0 ∧ last = 2 ^ 64 - 1 := by omega
  obtain ⟨rfl, rfl⟩ := hfull
  exact h [] group groups 0 rfl .nil hcount hgroup

theorem NoFullRange.rest (h : NoFullRange count (group :: groups))
    (hgroup : DenotesCpus (trimMatches isWhiteSpace group) first last) :
    NoFullRange (count + (last - first + 1)) groups := by
  intro before g after n hsplit hbefore hlt
  have hlonger : group :: groups = (group :: before) ++ g :: after := by rw [hsplit]; rfl
  exact h _ g after _ hlonger (.cons hgroup hbefore) (by omega)

/-- Without a full range the fold ends with the count of the groups, if that fits. -/
theorem foldlM_of_noFullRange (profile : Profile) (hcount : count < 2 ^ 64)
    (h : NoFullRange count groups) :
    ∃ r, (groups.foldlM (countGroup profile) count).run = .ok r ∧
      ∀ total, r = some total ↔ ∃ n, DenotesCount groups n ∧ total = count + n ∧ total < 2 ^ 64 := by
  induction groups generalizing count with
  | nil =>
    refine ⟨some count, rfl, fun total => ?_⟩
    constructor
    · intro htotal
      obtain rfl := Option.some.inj htotal
      exact ⟨0, .nil, rfl, hcount⟩
    · intro htotal
      obtain ⟨n, hn, rfl, -⟩ := htotal
      cases hn
      rfl
  | cons group groups ih =>
    cases hbounds : cpusetBounds group with
    | none =>
      have hrun : (countGroup profile count group).run = .ok none := by
        rw [countGroup, hbounds]
        rfl
      refine ⟨none, foldlM_run hrun, fun total => ⟨fun htotal => (by cases htotal), fun htotal => ?_⟩⟩
      obtain ⟨n, hn, -⟩ := htotal
      cases hn with
      | cons hgroup _ =>
        rw [← cpusetBounds_eq_some, hbounds] at hgroup
        cases hgroup
    | some bounds =>
      obtain ⟨first, last⟩ := bounds
      have hgroup := cpusetBounds_eq_some.mp hbounds
      have hrun := countGroup_of_denotes profile count hgroup
      rw [profile.word_of_lt (h.size_lt hcount hgroup)] at hrun
      by_cases hfits : count + (last - first + 1) < 2 ^ 64
      · obtain ⟨r, hr, hspec⟩ := ih hfits (h.rest hgroup)
        have hnext : (countGroup profile count group).run =
            .ok (some (count + (last - first + 1))) := by
          rw [hrun, ← checkedAdd_some hfits]
          rfl
        refine ⟨r, by rw [foldlM_run hnext]; exact hr, fun total => ?_⟩
        rw [hspec]
        constructor
        · intro htotal
          obtain ⟨n, hn, rfl, hlt⟩ := htotal
          exact ⟨_, .cons hgroup hn, by omega, hlt⟩
        · intro htotal
          obtain ⟨n, hn, rfl, hlt⟩ := htotal
          cases hn with
          | cons hgroup' hrest =>
            obtain ⟨rfl, rfl⟩ := hgroup.unique hgroup'
            exact ⟨_, hrest, by omega, hlt⟩
      · have hstop : (countGroup profile count group).run = .ok none := by
          rw [hrun, ← checkedAdd_none hfits]
          rfl
        refine ⟨none, foldlM_run hstop,
          fun total => ⟨fun htotal => (by cases htotal), fun htotal => ?_⟩⟩
        obtain ⟨n, hn, rfl, hlt⟩ := htotal
        cases hn with
        | cons hgroup' hrest =>
          obtain ⟨rfl, rfl⟩ := hgroup.unique hgroup'
          omega

/-- With overflow checks a full range stops the fold. -/
theorem noFullRange_of_foldlM (hcount : count < 2 ^ 64) {r : Option Nat}
    (h : (groups.foldlM (countGroup .dev) count).run = .ok r) : NoFullRange count groups := by
  induction groups generalizing count with
  | nil => exact fun before group after n hsplit => by simp at hsplit
  | cons first groups ih =>
    intro before group after n hsplit hbefore hlt hfull
    cases hbefore with
    | nil =>
      obtain ⟨rfl, rfl⟩ := List.cons.inj hsplit
      have hrun := countGroup_of_denotes .dev count hfull
      rw [List.foldlM_cons, OptionT.run_bind, hrun] at h
      cases h
    | @cons _ before low high m hgroup hrest =>
      obtain ⟨rfl, rfl⟩ := List.cons.inj hsplit
      have hrun := countGroup_of_denotes .dev count hgroup
      rw [Profile.dev.word_of_lt (by omega)] at hrun
      have hnext : (countGroup .dev count first).run = .ok (some (count + (high - low + 1))) := by
        rw [hrun, ← checkedAdd_some (by omega)]
        rfl
      rw [foldlM_run hnext] at h
      exact ih (by omega) h before group after m rfl hrest (by omega) hfull

end Fold

theorem noFullRange_iff {value : String} :
    NoFullRange 0 (value.toList.splitOn ',') ↔ ¬ ReachesFullRange value := by
  constructor
  · intro h hreach
    obtain ⟨before, group, after, n, hsplit, hbefore, hlt, hfull⟩ := hreach
    exact h before group after n hsplit hbefore (by omega) hfull
  · intro h before group after n hsplit hbefore hlt hfull
    exact h ⟨before, group, after, n, hsplit, hbefore, by omega, hfull⟩

/-- The only group of a blank text denotes nothing. -/
theorem group_of_blank {value : String} (h : trim value = "") {group : List Char}
    (hgroup : group ∈ value.toList.splitOn ',') (first last : Nat) :
    ¬ DenotesCpus (trimMatches isWhiteSpace group) first last := by
  have htext : trimMatches isWhiteSpace value.toList = [] := by simpa [trim] using h
  have hblank : ∀ c ∈ value.toList, isWhiteSpace c = true := by
    intro c hc
    have hrest := List.rdropWhile_eq_nil_iff.mp htext
    rw [← List.takeWhile_append_dropWhile (p := isWhiteSpace) (l := value.toList)] at hc
    rcases List.mem_append.mp hc with hc | hc
    · exact List.mem_takeWhile_imp hc
    · exact hrest c hc
  have hcomma : ',' ∉ value.toList := by
    intro hmem
    have hwhite := hblank _ hmem
    revert hwhite
    decide
  rw [List.splitOn_eq_singleton hcomma] at hgroup
  obtain rfl := List.mem_singleton.mp hgroup
  rw [htext]
  intro hdenotes
  obtain ⟨-, ⟨hfirst, -⟩ | ⟨low, high, hnil, -⟩⟩ := hdenotes
  · cases hfirst
  · simp at hnil

theorem not_denotesCount_of_blank {value : String} (h : trim value = "") (n : Nat) :
    ¬ DenotesCount (value.toList.splitOn ',') n := by
  have hgroups := fun group => @group_of_blank value h group
  have hne := List.splitOn_ne_nil ',' value.toList
  generalize value.toList.splitOn ',' = groups at hgroups hne
  intro hcount
  cases hcount with
  | nil => exact hne rfl
  | cons hgroup _ => exact hgroups _ List.mem_cons_self _ _ hgroup

/-- Where no full range is reached, the count is the sum over the groups whenever that fits. -/
theorem parseCpusetCountIn_of_not_reaches {value : String} (h : ¬ ReachesFullRange value)
    (profile : Profile) : ∃ r, parseCpusetCountIn profile value = .ok r ∧
      ∀ total, r = some total ↔ DenotesCount (value.toList.splitOn ',') total ∧ total < 2 ^ 64 := by
  unfold parseCpusetCountIn
  split_ifs with hblank
  · refine ⟨none, rfl, fun total => ⟨fun htotal => (by cases htotal), fun htotal => ?_⟩⟩
    exact absurd htotal.1 (not_denotesCount_of_blank hblank total)
  · obtain ⟨r, hr, hspec⟩ := foldlM_of_noFullRange profile (by omega) (noFullRange_iff.mpr h)
    refine ⟨r, hr, fun total => (hspec total).trans ?_⟩
    simp only [Nat.zero_add]
    constructor
    · intro htotal
      obtain ⟨n, hn, rfl, hlt⟩ := htotal
      exact ⟨hn, hlt⟩
    · intro htotal
      exact ⟨total, htotal.1, rfl, htotal.2⟩

/-- The count is exact as long as the fold does not come to a group of all 64-bit numbers. -/
theorem parseCpusetCount_exact_iff (value : String) :
    CountsExactly value ↔ ¬ ReachesFullRange value := by
  constructor
  · intro h
    obtain ⟨⟨r, hr⟩, -⟩ := h
    unfold parseCpusetCountIn at hr
    split_ifs at hr with hblank
    · intro hreach
      obtain ⟨before, group, after, n, hsplit, -, -, hfull⟩ := hreach
      have hmem : group ∈ value.toList.splitOn ',' := by
        rw [hsplit]
        simp
      exact group_of_blank hblank hmem _ _ hfull
    · exact noFullRange_iff.mp (noFullRange_of_foldlM (by omega) hr)
  · intro h
    refine ⟨?_, fun profile r hr => ?_⟩
    · obtain ⟨r, hr, -⟩ := parseCpusetCountIn_of_not_reaches h .dev
      exact ⟨r, hr⟩
    · obtain ⟨r', hr', hspec⟩ := parseCpusetCountIn_of_not_reaches h profile
      obtain rfl := Except.ok.inj (hr'.symm.trans hr)
      constructor
      · cases r' with
        | none => exact .inl rfl
        | some total => exact .inr ⟨total, rfl, ((hspec total).mp rfl).1⟩
      · intro n hn hlarge
        cases r' with
        | none => rfl
        | some total =>
          obtain ⟨htotal, hlt⟩ := (hspec total).mp rfl
          obtain rfl := htotal.unique hn
          omega

/-- The size of the full range is no 64-bit number. -/
theorem parseCpusetCount_full_range :
    ¬ CountsExactly "0-18446744073709551615" ∧
    parseCpusetCountIn .dev "0-18446744073709551615" = .error .overflow ∧
    parseCpusetCountIn .release "0-18446744073709551615" = .ok (some 0) := by
  have hdev : parseCpusetCountIn .dev "0-18446744073709551615" = .error .overflow := by
    decide +kernel
  refine ⟨fun h => ?_, hdev, by decide +kernel⟩
  obtain ⟨⟨r, hr⟩, -⟩ := h
  rw [hdev] at hr
  cases hr

end Dlir.Cli
