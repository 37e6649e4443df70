import ReleaseRunner.Proofs.Version.Precedence

/-!
# Sorting versions

The order of versions is a strict weak order, across formats as well, because it is that of their
ranks. So sorting puts any versions of documented formats into order, and leaves those of one
rank as they came (`CalVer.sort_sorts`).

A sorted list keeps, for each rank, what the given list has of that rank (`CalVer.Sorts`). That is
shown of the run in front first, and then of each version that is put in: the place for it is the
one that parts the ranks up to its own from those above (`CalVer.placeFor_parts`).
-/

namespace ReleaseRunner.Version

open Text Number

namespace CalVer

/-! ## Sorted lists -/

/-- Neither version comes before the other. -/
def Unordered (v w : CalVer) : Prop := v.lt w = .ok false ∧ w.lt v = .ok false

/-- The second list is in order and has, of each rank, the versions of the first as they came. -/
structure Sorts (vs sorted : List CalVer) : Prop where
  inOrder : sorted.Pairwise (·.rank ≤ ·.rank)
  stable : ∀ k, sorted.filter (fun v => v.rank = k) = vs.filter fun v => v.rank = k

/-- No version is lost and none comes in. -/
theorem Sorts.perm {vs sorted : List CalVer} (h : Sorts vs sorted) : sorted.Perm vs := by
  rw [List.perm_iff_count]
  intro v
  have hcount : ∀ l : List CalVer, (l.filter fun w => w.rank = v.rank).count v = l.count v :=
    fun l => List.count_filter (by simp)
  rw [← hcount sorted, ← hcount vs, h.stable]

section
variable {vs sorted : List CalVer} {v : CalVer}

/-- A version behind those of ranks up to its own, and in front of all others. -/
private theorem Sorts.insert {place : Nat} (h : Sorts vs sorted)
    (hfront : ∀ w ∈ sorted.take place, w.rank ≤ v.rank)
    (hback : ∀ w ∈ sorted.drop place, v.rank < w.rank) :
    Sorts (vs ++ [v]) (sorted.take place ++ v :: sorted.drop place) := by
  have hsplit : sorted.take place ++ sorted.drop place = sorted :=
    List.take_append_drop place sorted
  have horder := h.inOrder
  rw [← hsplit, List.pairwise_append] at horder
  obtain ⟨htake, hdrop, hacross⟩ := horder
  constructor
  · refine List.pairwise_append.mpr ⟨htake, List.pairwise_cons.mpr ⟨?_, hdrop⟩, ?_⟩
    · exact fun w hw => (hback w hw).le
    · intro w hw w' hw'
      rcases List.mem_cons.mp hw' with rfl | hw'
      · exact hfront w hw
      · exact hacross w hw w' hw'
  · intro k
    have hvs := h.stable k
    rw [← hsplit, List.filter_append] at hvs
    rw [List.filter_append vs, ← hvs, List.filter_append, List.filter_cons, List.filter_singleton]
    by_cases hk : v.rank = k
    · -- behind the version there is none of its rank any more
      have hnone : (sorted.drop place).filter (fun w => w.rank = k) = [] := by
        refine List.filter_eq_nil_iff.mpr fun w hw => ?_
        rw [decide_eq_true_eq, ← hk]
        exact (hback w hw).ne'
      simp [hk, hnone]
    · simp [hk]

/-! ## The run in front -/

/-- A run that descends has no two versions of one rank, so that it may be turned round. -/
private theorem sorts_reverse (h : vs.Pairwise fun v w => w.rank < v.rank) :
    Sorts vs vs.reverse := by
  constructor
  · rw [List.pairwise_reverse]
    exact h.imp fun hlt => hlt.le
  · intro k
    rw [List.filter_reverse]
    have hfilter := h.filter fun v => decide (v.rank = k)
    have hrank : ∀ v ∈ vs.filter fun v => v.rank = k, v.rank = k := fun v hv => by
      simpa using (List.mem_filter.mp hv).2
    generalize vs.filter (fun v => v.rank = k) = equals at hfilter hrank
    match equals with
    | [] => rfl
    | [v] => rfl
    | v :: w :: rest =>
      have hlt := (List.pairwise_cons.mp hfilter).1 w List.mem_cons_self
      rw [hrank v List.mem_cons_self, hrank w (List.mem_cons_of_mem v List.mem_cons_self)] at hlt
      exact absurd hlt (lt_irrefl k)

/-- A run goes on as long as each version stands to the one before as the second to the first. -/
private theorem runLength_chain (descending : Bool) {v : CalVer} {rest : List CalVer}
    (h : ∀ w ∈ v :: rest, w.Regular) :
    ∃ n, runLength descending v rest = .ok (n + 1) ∧
      (v :: rest.take n).IsChain fun v w => decide (w.rank < v.rank) = descending := by
  induction rest generalizing v with
  | nil => exact ⟨0, rfl, List.isChain_singleton v⟩
  | cons w rest ih =>
    have hv := h v List.mem_cons_self
    have hw := h w (List.mem_cons_of_mem v List.mem_cons_self)
    obtain ⟨n, hn, hchain⟩ := ih fun u hu => h u (List.mem_cons_of_mem v hu)
    unfold runLength
    rw [lt_eq_rank hw hv]
    dsimp only [bind, Except.bind]
    by_cases hsame : decide (w.rank < v.rank) = descending
    · rw [if_pos (beq_iff_eq.mpr hsame), hn]
      exact ⟨n + 1, rfl, List.isChain_cons_cons.mpr ⟨hsame, hchain⟩⟩
    · rw [if_neg (mt beq_iff_eq.mp hsame)]
      exact ⟨0, rfl, List.isChain_singleton v⟩

/-- The run in front is put into order, and the rest is left as it is. -/
private theorem leadingRun_sorts (h : ∀ v ∈ vs, v.Regular) :
    ∃ front run rest, leadingRun vs = .ok (run, rest) ∧ vs = front ++ rest ∧ Sorts front run := by
  have hself : ∀ vs : List CalVer, vs.Pairwise (·.rank ≤ ·.rank) → Sorts vs vs :=
    fun vs horder => ⟨horder, fun _ => rfl⟩
  match vs with
  | [] => exact ⟨[], [], [], rfl, rfl, hself _ List.Pairwise.nil⟩
  | [v] => exact ⟨[v], [v], [], rfl, by simp, hself _ (List.pairwise_singleton _ v)⟩
  | v :: w :: rest =>
    have hv := h v List.mem_cons_self
    have hw := h w (List.mem_cons_of_mem v List.mem_cons_self)
    obtain ⟨n, hn, hchain⟩ := runLength_chain (decide (w.rank < v.rank)) fun u hu =>
      h u (List.mem_cons_of_mem v hu)
    have hrun : (v :: w :: rest.take n).IsChain fun u u' =>
        decide (u'.rank < u.rank) = decide (w.rank < v.rank) :=
      List.isChain_cons_cons.mpr ⟨rfl, hchain⟩
    have hlead : leadingRun (v :: w :: rest) = .ok
        (if decide (w.rank < v.rank) then (v :: w :: rest.take n).reverse
          else v :: w :: rest.take n, rest.drop n) := by
      unfold leadingRun
      dsimp only
      rw [lt_eq_rank hw hv]
      dsimp only [bind, Except.bind]
      rw [hn]
      simp [pure, Except.pure]
    refine ⟨v :: w :: rest.take n, _, rest.drop n, hlead, by simp, ?_⟩
    by_cases hdescends : w.rank < v.rank
    · simp only [hdescends, decide_true, decide_eq_true_eq] at hrun ⊢
      exact sorts_reverse (hrun.pairwise (R := fun u u' : CalVer => u'.rank < u.rank))
    · simp only [hdescends, decide_false, decide_eq_false_iff_not, not_lt] at hrun ⊢
      exact hself _ (hrun.pairwise (R := fun u u' : CalVer => u.rank ≤ u'.rank))

/-! ## Putting a version in -/

/-- In a sorted list nothing up to a place is above it, and nothing from there on below it. -/
private theorem rank_of_getElem? {i : Nat} {w : CalVer}
    (horder : sorted.Pairwise (·.rank ≤ ·.rank)) (hw : sorted[i]? = some w) :
    (∀ u ∈ sorted.take (i + 1), u.rank ≤ w.rank) ∧ ∀ u ∈ sorted.drop i, w.rank ≤ u.rank := by
  have hdrop : sorted.drop i = w :: sorted.drop (i + 1) := by
    rw [List.drop_eq_getElem?_toList_append, hw, Option.toList_some, List.singleton_append]
  have htake : sorted.take (i + 1) = sorted.take i ++ [w] := by
    rw [List.take_add_one, hw, Option.toList_some]
  rw [← List.take_append_drop i sorted, hdrop, List.pairwise_append, List.pairwise_cons] at horder
  obtain ⟨-, ⟨hafter, -⟩, hbefore⟩ := horder
  rw [hdrop, htake]
  constructor
  · intro u hu
    rcases List.mem_append.mp hu with hu | hu
    · exact hbefore u hu w List.mem_cons_self
    · exact (congrArg rank (List.mem_singleton.mp hu)).le
  · intro u hu
    rcases List.mem_cons.mp hu with rfl | hu
    · exact le_refl u.rank
    · exact hafter u hu

/-- Halving the distance finds the place that parts the ranks up to a version's own from those
above it. -/
theorem placeFor_parts (hv : v.Regular) (h : ∀ w ∈ sorted, w.Regular)
    (horder : sorted.Pairwise (·.rank ≤ ·.rank)) {fuel low high : Nat} (hfuel : high - low ≤ fuel)
    (hlow : low ≤ high) (hhigh : high ≤ sorted.length)
    (hfront : ∀ w ∈ sorted.take low, w.rank ≤ v.rank)
    (hback : ∀ w ∈ sorted.drop high, v.rank < w.rank) :
    ∃ place, placeFor v sorted fuel low high = .ok place ∧
      (∀ w ∈ sorted.take place, w.rank ≤ v.rank) ∧ ∀ w ∈ sorted.drop place, v.rank < w.rank := by
  induction fuel generalizing low high with
  | zero =>
    obtain rfl : low = high := by omega
    exact ⟨low, rfl, hfront, hback⟩
  | succ fuel ih =>
    unfold placeFor
    by_cases hlt : low < high
    · have hmiddle : (low + high) / 2 < sorted.length := by omega
      have hget := List.getElem?_eq_getElem hmiddle
      have hw := h _ (List.getElem_mem hmiddle)
      generalize sorted[(low + high) / 2] = w at hget hw
      obtain ⟨hbefore, hafter⟩ := rank_of_getElem? horder hget
      rw [if_pos hlt]
      dsimp only
      rw [hget]
      dsimp only
      rw [lt_eq_rank hv hw]
      dsimp only [bind, Except.bind]
      by_cases hrank : v.rank < w.rank
      · rw [if_pos (decide_eq_true hrank)]
        exact ih (by omega) (by omega) (by omega) hfront fun u hu =>
          hrank.trans_le (hafter u hu)
      · rw [if_neg (by simpa using hrank)]
        exact ih (by omega) (by omega) hhigh
          (fun u hu => (hbefore u hu).trans (not_lt.mp hrank)) hback
    · rw [if_neg hlt]
      obtain rfl : low = high := by omega
      exact ⟨low, rfl, hfront, hback⟩

/-- Versions that are put in one after the other come behind those of their rank. -/
theorem insertAll_sorts {given : List CalVer} (hs : Sorts given sorted)
    (h : ∀ v ∈ given ++ vs, v.Regular) :
    ∃ result, insertAll sorted vs = .ok result ∧ Sorts (given ++ vs) result := by
  induction vs generalizing given sorted with
  | nil => exact ⟨sorted, rfl, by rwa [List.append_nil]⟩
  | cons v vs ih =>
    have hsorted : ∀ w ∈ sorted, w.Regular := fun w hw =>
      h w (List.mem_append_left _ (hs.perm.subset hw))
    have hv : v.Regular := h v (List.mem_append_right _ List.mem_cons_self)
    obtain ⟨place, hplace, hfront, hback⟩ := placeFor_parts hv hsorted hs.inOrder
      (Nat.sub_le sorted.length 0) (Nat.zero_le _) (le_refl _) (by simp) (by simp)
    have happend : given ++ v :: vs = (given ++ [v]) ++ vs := by simp
    obtain ⟨result, hresult, hsorts⟩ := ih (hs.insert hfront hback) (happend ▸ h)
    refine ⟨result, ?_, happend ▸ hsorts⟩
    unfold insertAll
    rw [hplace]
    exact hresult

/-- Versions of documented formats are sorted by their ranks, and those of one rank stay as they
came. -/
theorem sort_sorts (h : ∀ v ∈ vs, v.Regular) :
    ∃ sorted, sort vs = .ok sorted ∧ Sorts vs sorted := by
  obtain ⟨front, run, rest, hlead, rfl, hrun⟩ := leadingRun_sorts h
  obtain ⟨sorted, hsorted, hsorts⟩ := insertAll_sorts hrun h
  refine ⟨sorted, ?_, hsorts⟩
  unfold sort
  rw [hlead]
  exact hsorted

end

/-! ## The main theorem -/

private theorem lt_eq_true_iff {v w : CalVer} (hv : v.Regular) (hw : w.Regular) :
    v.lt w = .ok true ↔ v.rank < w.rank := by
  simp [lt_eq_rank hv hw]

private theorem lt_eq_false_iff {v w : CalVer} (hv : v.Regular) (hw : w.Regular) :
    v.lt w = .ok false ↔ w.rank ≤ v.rank := by
  simp [lt_eq_rank hv hw]

private theorem unordered_iff {v w : CalVer} (hv : v.Regular) (hw : w.Regular) :
    v.Unordered w ↔ v.rank = w.rank := by
  unfold Unordered
  rw [lt_eq_false_iff hv hw, lt_eq_false_iff hw hv, and_comm, ← le_antisymm_iff]

/-- Among versions of any documented formats the order is that of their ranks, a strict weak
order. Sorting puts them into it, so that no version comes before one in front of it. -/
theorem lt_strictWeakOrder {vs : List CalVer} (h : ∀ v ∈ vs, v.Regular) :
    (∀ v ∈ vs, ∀ w ∈ vs, v.lt w = .ok (decide (v.rank < w.rank))) ∧
      (∀ v ∈ vs, v.lt v = .ok false) ∧
      (∀ u ∈ vs, ∀ v ∈ vs, ∀ w ∈ vs,
        u.lt v = .ok true → v.lt w = .ok true → u.lt w = .ok true) ∧
      (∀ u ∈ vs, ∀ v ∈ vs, ∀ w ∈ vs, u.Unordered v → v.Unordered w → u.Unordered w) ∧
      ∃ sorted, sort vs = .ok sorted ∧ Sorts vs sorted ∧ sorted.Perm vs ∧
        sorted.Pairwise fun v w => w.lt v = .ok false := by
  refine ⟨fun v hv w hw => lt_eq_rank (h v hv) (h w hw), fun v hv => ?_, ?_, ?_, ?_⟩
  · exact (lt_eq_false_iff (h v hv) (h v hv)).mpr (le_refl _)
  · intro u hu v hv w hw huv hvw
    rw [lt_eq_true_iff (h u hu) (h v hv)] at huv
    rw [lt_eq_true_iff (h v hv) (h w hw)] at hvw
    exact (lt_eq_true_iff (h u hu) (h w hw)).mpr (huv.trans hvw)
  · intro u hu v hv w hw huv hvw
    rw [unordered_iff (h u hu) (h v hv)] at huv
    rw [unordered_iff (h v hv) (h w hw)] at hvw
    exact (unordered_iff (h u hu) (h w hw)).mpr (huv.trans hvw)
  · obtain ⟨sorted, hsorted, hsorts⟩ := sort_sorts h
    have hregular : ∀ v ∈ sorted, v.Regular := fun v hv => h v (hsorts.perm.subset hv)
    refine ⟨sorted, hsorted, hsorts, hsorts.perm, hsorts.inOrder.imp_of_mem ?_⟩
    intro v w hv hw hrank
    exact (lt_eq_false_iff (hregular w hw) (hregular v hv)).mpr hrank

/-- Two ways to write a number, and a version of another format. -/
theorem lt_strictWeakOrder_scripts :
    ∃ u v w, CalVer.of "YYYY.MICRO" "2024.10" = .ok u ∧ CalVer.of "YYYY.MICRO" "2024.1٠" = .ok v ∧
      CalVer.of "YY.0W[-MODIFIER]" "24.07-rc" = .ok w ∧ (∀ x ∈ [u, v, w], x.Regular) ∧
      ∃ sorted, sort [u, v, w] = .ok sorted ∧ sorted.Perm [u, v, w] ∧
        sorted.Pairwise fun x y => y.lt x = .ok false := by
  let u : CalVer := ⟨"YYYY.MICRO", some "2024", none, none, none, none, some "10", none⟩
  let v : CalVer := ⟨"YYYY.MICRO", some "2024", none, none, none, none, some "1٠", none⟩
  let w : CalVer := ⟨"YY.0W[-MODIFIER]", some "24", none, some "07", none, none, none, some "rc"⟩
  have hu : CalVer.of "YYYY.MICRO" "2024.10" = .ok u := by decide +kernel
  have hv : CalVer.of "YYYY.MICRO" "2024.1٠" = .ok v := by decide +kernel
  have hw : CalVer.of "YY.0W[-MODIFIER]" "24.07-rc" = .ok w := by decide +kernel
  have hmicro : stripped "YYYY.MICRO".toList =
      Layout.text ⟨.full, .none, none, some .point, .none⟩ := by decide
  have hweek : stripped "YY.0W[-MODIFIER]".toList =
      Layout.text ⟨.short, .week .point true, none, none, .optional .hyphen⟩ := by decide
  have hshort : u.ShortCounters ∧ v.ShortCounters ∧ w.ShortCounters := by
    refine ⟨?_, ?_, ?_⟩
    · intro slot _ text htext
      cases slot <;> cases htext <;> decide
    · intro slot _ text htext
      cases slot <;> cases htext <;> decide
    · intro slot _ text htext
      cases slot <;> cases htext <;> decide
  have hregular : ∀ x ∈ [u, v, w], x.Regular := by
    intro x hx
    simp only [List.mem_cons, List.not_mem_nil, or_false] at hx
    rcases hx with rfl | rfl | rfl
    · exact ⟨⟨_, _, _, hmicro, hu⟩, hshort.1⟩
    · exact ⟨⟨_, _, _, hmicro, hv⟩, hshort.2.1⟩
    · exact ⟨⟨_, _, _, hweek, hw⟩, hshort.2.2⟩
  obtain ⟨-, -, -, -, sorted, hsorted, -, hperm, horder⟩ := lt_strictWeakOrder hregular
  exact ⟨u, v, w, hu, hv, hw, hregular, sorted, hsorted, hperm, horder⟩

end CalVer

end ReleaseRunner.Version
