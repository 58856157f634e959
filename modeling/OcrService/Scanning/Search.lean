import OcrService.Scanning.Reader

/-! All the places of a list where a reader succeeds, found from left to right. -/
namespace Scanning

universe u
variable {τ α : Type u}

structure Found (α : Type u) where
  start : Nat
  stop : Nat
  value : α

/-- The search goes on behind each place found; `skip` is how far that still is, and `pos` is
where the list begins. -/
def search (f : Reader τ α) : Nat → Nat → List τ → List (Found α)
  | _, _, [] => []
  | skip + 1, pos, _ :: xs => search f skip (pos + 1) xs
  | 0, pos, x :: xs =>
    match f (x :: xs) with
    | some (a, rest) =>
      ⟨pos, pos + ((x :: xs).length - rest.length), a⟩ ::
        search f (xs.length - rest.length) (pos + 1) xs
    | none => search f 0 (pos + 1) xs

structure FindsAt (f : Reader τ α) (xs : List τ) (m : Found α) : Prop where
  lt : m.start < m.stop
  le : m.stop ≤ xs.length
  read : f (xs.drop m.start) = some (m.value, xs.drop m.stop)

def Marked (Q : τ → Prop) (f : Reader τ α) : Prop :=
  ∀ ⦃xs a rest⦄, f xs = some (a, rest) →
    ∃ x text, xs = x :: (text ++ rest) ∧ Q x ∧ ∀ y ∈ text, ¬Q y

def Found.shift (m : Found α) (n : Nat) : Found α := ⟨n + m.start, n + m.stop, m.value⟩

theorem FindsAt.shift {f : Reader τ α} {xs : List τ} {m : Found α} (h : FindsAt f xs m) (x : τ) :
    FindsAt f (x :: xs) (m.shift 1) where
  lt := by
    have := h.lt
    simp only [Found.shift]
    omega
  le := by
    have := h.le
    simp only [Found.shift, List.length_cons]
    omega
  read := by
    simp only [Found.shift, Nat.add_comm 1, List.drop_succ_cons]
    exact h.read

theorem FindsAt.unshift {f : Reader τ α} {xs : List τ} {x : τ} {m : Found α}
    (h : FindsAt f (x :: xs) m) (hstart : m.start ≠ 0) :
    ∃ m', FindsAt f xs m' ∧ m = m'.shift 1 := by
  obtain ⟨start, stop, a⟩ := m
  have hlt : start < stop := h.lt
  obtain ⟨i, rfl⟩ := Nat.exists_eq_succ_of_ne_zero hstart
  obtain ⟨j, rfl⟩ := Nat.exists_eq_succ_of_ne_zero (Nat.ne_of_gt (Nat.zero_lt_of_lt hlt))
  refine ⟨⟨i, j, a⟩, ⟨Nat.lt_of_succ_lt_succ hlt, Nat.le_of_succ_le_succ h.le, h.read⟩, ?_⟩
  simp [Found.shift, Nat.add_comm]

theorem FindsAt.unique {f : Reader τ α} {xs : List τ} {m m' : Found α} (h : FindsAt f xs m)
    (h' : FindsAt f xs m') (hstart : m.start = m'.start) : m = m' := by
  have hread := h.read
  rw [hstart, h'.read] at hread
  obtain ⟨hvalue, hrest⟩ := Prod.mk.inj (Option.some.inj hread)
  have hlength := congrArg List.length hrest
  rw [List.length_drop, List.length_drop] at hlength
  have hle := h.le
  have hle' := h'.le
  have hstop : m.stop = m'.stop := by omega
  cases m
  cases m'
  simp_all

theorem Marked.bind {β : Type u} [DecidableEq τ] {Q : τ → Prop} {x : τ} {text : List τ}
    {g : PUnit → Reader τ β} (hx : Q x) (htext : ∀ y ∈ text, ¬Q y)
    (hg : ∀ a, Takes (fun y => ¬Q y) (g a)) : Marked Q (literal (x :: text) >>= g) := by
  intro xs b rest hread
  obtain ⟨a, mid, hfirst, hsecond⟩ := bind_eq_some.mp hread
  obtain ⟨text', rfl, htext'⟩ := hg a hsecond
  refine ⟨x, text ++ text', ?_, hx, ?_⟩
  · rw [literal_eq_some.mp hfirst, List.cons_append, List.append_assoc]
  · intro y hy
    obtain hy | hy := List.mem_append.mp hy
    · exact htext y hy
    · exact htext' y hy

section Marked
variable {Q : τ → Prop} {f : Reader τ α}

/-- The search misses no place, as no two overlap. -/
theorem mem_search_iff (hf : Marked Q f) {xs : List τ} {skip pos : Nat}
    (hskip : ∀ y ∈ xs.take skip, ¬Q y) {m : Found α} :
    m ∈ search f skip pos xs ↔ ∃ m', FindsAt f xs m' ∧ m = m'.shift pos := by
  induction xs generalizing skip pos with
  | nil =>
    refine iff_of_false (by simp [search]) ?_
    intro h
    obtain ⟨m', h, -⟩ := h
    exact absurd (Nat.lt_of_lt_of_le h.lt h.le) (Nat.not_lt_zero _)
  | cons x xs ih =>
    have hshift (m' : Found α) : (m'.shift 1).shift pos = m'.shift (pos + 1) := by
      simp [Found.shift, Nat.add_assoc]
    have hrest : (∃ m', FindsAt f xs m' ∧ m = m'.shift (pos + 1)) ↔
        ∃ m', (FindsAt f (x :: xs) m' ∧ m'.start ≠ 0) ∧ m = m'.shift pos := by
      constructor
      · intro h
        obtain ⟨m', h, rfl⟩ := h
        exact ⟨m'.shift 1, ⟨h.shift x, by simp [Found.shift]⟩, (hshift m').symm⟩
      · intro h
        obtain ⟨m', ⟨h, hstart⟩, rfl⟩ := h
        obtain ⟨m'', h'', rfl⟩ := h.unshift hstart
        exact ⟨m'', h'', hshift m''⟩
    have hnone (h : ∀ a rest, f (x :: xs) ≠ some (a, rest)) :
        (∃ m', (FindsAt f (x :: xs) m' ∧ m'.start ≠ 0) ∧ m = m'.shift pos) ↔
          ∃ m', FindsAt f (x :: xs) m' ∧ m = m'.shift pos := by
      refine exists_congr fun m' => and_congr_left fun _ => and_iff_left_of_imp fun h' hstart => ?_
      exact h _ _ (by simpa [hstart] using h'.read)
    cases skip with
    | succ skip =>
      rw [search, ih fun y hy => hskip y (List.mem_cons_of_mem x hy), hrest]
      refine hnone fun a rest hread => ?_
      obtain ⟨y, text, hxs, hy, -⟩ := hf hread
      obtain rfl := (List.cons.inj hxs).1
      exact hskip x List.mem_cons_self hy
    | zero =>
      rw [search]
      split
      · rename_i a rest hread
        obtain ⟨y, text, hxs, -, htext⟩ := hf hread
        obtain ⟨rfl, rfl⟩ := List.cons.inj hxs
        have hlength : (text ++ rest).length - rest.length = text.length := by simp
        rw [hlength, List.mem_cons, ih fun y hy => htext y (by simpa using hy), hrest]
        have hfirst : FindsAt f (x :: (text ++ rest)) ⟨0, text.length + 1, a⟩ :=
          ⟨Nat.succ_pos _, by simp, by simpa using hread⟩
        constructor
        · intro h
          obtain rfl | ⟨m', ⟨h, -⟩, rfl⟩ := h
          · refine ⟨_, hfirst, ?_⟩
            simp only [Found.shift, List.length_cons, List.length_append]
            congr 1
            omega
          · exact ⟨m', h, rfl⟩
        · intro h
          obtain ⟨m', h, rfl⟩ := h
          by_cases hstart : m'.start = 0
          · obtain rfl := h.unique hfirst hstart
            refine .inl ?_
            simp only [Found.shift, List.length_cons, List.length_append]
            congr 1
            omega
          · exact .inr ⟨m', ⟨h, hstart⟩, rfl⟩
      · rename_i hread
        rw [ih (by simp), hrest]
        exact hnone fun a rest h => by rw [hread] at h; cases h

theorem search_start_le {skip pos : Nat} {xs : List τ} :
    ∀ m ∈ search f skip pos xs, pos ≤ m.start := by
  induction xs generalizing skip pos with
  | nil => simp [search]
  | cons x xs ih =>
    intro m hm
    cases skip with
    | succ skip => exact Nat.le_of_succ_le (ih m (by simpa only [search] using hm))
    | zero =>
      rw [search] at hm
      split at hm
      · obtain rfl | hm := List.mem_cons.mp hm
        · exact Nat.le_refl _
        · exact Nat.le_of_succ_le (ih m hm)
      · exact Nat.le_of_succ_le (ih m hm)

theorem search_sorted {skip pos : Nat} {xs : List τ} :
    (search f skip pos xs).Pairwise fun m m' => m.start < m'.start := by
  induction xs generalizing skip pos with
  | nil => exact .nil
  | cons x xs ih =>
    cases skip with
    | succ skip => exact ih
    | zero =>
      rw [search]
      split
      · exact List.pairwise_cons.mpr ⟨fun m hm => search_start_le m hm, ih⟩
      · exact ih

theorem last_search_iff (hf : Marked Q f) {xs : List τ} {m : Found α} :
    (search f 0 0 xs).getLast? = some m ↔
      FindsAt f xs m ∧ ∀ m', FindsAt f xs m' → m'.start ≤ m.start := by
  have hmem {m' : Found α} : m' ∈ search f 0 0 xs ↔ FindsAt f xs m' := by
    rw [mem_search_iff hf (by simp)]
    simp [Found.shift]
  have hsorted : (search f 0 0 xs).Pairwise fun m m' => m.start < m'.start := search_sorted
  rw [List.getLast?_eq_some_iff]
  constructor
  · intro h
    obtain ⟨before, hsearch⟩ := h
    rw [hsearch] at hsorted hmem
    refine ⟨hmem.mp (by simp), fun m' hm' => ?_⟩
    obtain hbefore | hlast := List.mem_append.mp (hmem.mpr hm')
    · exact Nat.le_of_lt ((List.pairwise_append.mp hsorted).2.2 m' hbefore m (by simp))
    · rw [List.mem_singleton.mp hlast]
  · intro h
    obtain ⟨hm, hlast⟩ := h
    obtain ⟨before, after, hsearch⟩ := List.append_of_mem (hmem.mpr hm)
    cases after with
    | nil => exact ⟨before, hsearch⟩
    | cons m' after =>
      rw [hsearch] at hsorted hmem
      have hlt := (List.pairwise_cons.mp (List.pairwise_append.mp hsorted).2.1).1 m' (by simp)
      exact absurd (hlast m' (hmem.mp (by simp))) (Nat.not_le_of_gt hlt)

end Marked

theorem FindsAt.append {f : Reader τ α} (hf : Closed f) {xs : List τ} {m : Found α}
    (h : FindsAt f xs m) (zs : List τ) : FindsAt f (xs ++ zs) m where
  lt := h.lt
  le := by
    have := h.le
    rw [List.length_append]
    omega
  read := by
    have hlt := h.lt
    have hle := h.le
    rw [List.drop_append_of_le_length (by omega), List.drop_append_of_le_length hle]
    exact hf.extend h.read

theorem FindsAt.of_append {f : Reader τ α} (hf : Local f) {xs zs : List τ} {m : Found α}
    (h : FindsAt f (xs ++ zs) m) (hstop : m.stop ≤ xs.length) : FindsAt f xs m where
  lt := h.lt
  le := hstop
  read := by
    have hlt := h.lt
    have hread := h.read
    rw [List.drop_append_of_le_length (by omega), List.drop_append_of_le_length hstop] at hread
    exact hf.restrict hread

theorem last_search_append_ne_none {Q : τ → Prop} {f : Reader τ α} (hmarked : Marked Q f)
    (hclosed : Closed f) {xs : List τ} {m : Found α} (h : (search f 0 0 xs).getLast? = some m)
    (zs : List τ) : (search f 0 0 (xs ++ zs)).getLast? ≠ none := by
  have hfound := ((last_search_iff hmarked).mp h).1.append hclosed zs
  have hmem : m ∈ search f 0 0 (xs ++ zs) :=
    (mem_search_iff hmarked (by simp)).mpr ⟨m, hfound, by simp [Found.shift]⟩
  rw [Ne, List.getLast?_eq_none_iff]
  exact List.ne_nil_of_mem hmem

/-- Where the last place of the longer list is within the shorter one, it is the last there. -/
theorem last_search_of_append {Q : τ → Prop} {f : Reader τ α} (hmarked : Marked Q f)
    (hlocal : Local f) (hclosed : Closed f) {xs zs : List τ} {m : Found α}
    (h : (search f 0 0 (xs ++ zs)).getLast? = some m) (hstop : m.stop ≤ xs.length) :
    (search f 0 0 xs).getLast? = some m := by
  obtain ⟨hm, hlast⟩ := (last_search_iff hmarked).mp h
  exact (last_search_iff hmarked).mpr
    ⟨hm.of_append hlocal hstop, fun m' hm' => hlast m' (hm'.append hclosed zs)⟩

end Scanning
