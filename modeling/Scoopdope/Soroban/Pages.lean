import Scoopdope.Soroban.BoundedInt
import Scoopdope.Soroban.History

/-!
# Pages of a log

A contract hands out a stored log page by page: the caller names a start and a limit, and gets
the entries from the start on, at most `limit` of them. `readPage` is the loop such readers share.
The end of the page is a sum of two numbers of the caller, computed before it is cut off at the
count, and it has to fit (`readPage_eq_ok`).

`Stored get count log` says what such a contract keeps (`stored_after`).

`PagedBy read log` says it of any reader. `PagedBy.exact_iff`: on which arguments it returns the
page. `PagedBy.readAll_iff`: for which page sizes the pages 0, p, 2p, ... make up the log.
-/

namespace Soroban

/-! ## Logs filed under numbers

An append-only log whose entries a contract stores one by one under the numbers
`first`, `first + 1`, ...: `Filed first get log` says that `get` reads back the
log and nothing else. Storing one more entry under the next number appends it to
the log (`Filed.push`), and reading the numbers in order reads the log
(`Filed.upTo`). -/

section Log

variable {lo hi : Int} {V : Type}

/-- The entries of `log` are stored under consecutive numbers from `first` on. -/
def Filed (first : Nat) (get : BoundedInt lo hi → Option V) (log : List V) : Prop :=
  ∀ id, get id = if (first : Int) ≤ id.val then log[(id.val - first).toNat]? else none

namespace Filed

variable {first : Nat} {get get' : BoundedInt lo hi → Option V} {log : List V}

theorem empty : Filed first (fun _ : BoundedInt lo hi => (none : Option V)) [] := by
  intro id
  split <;> rfl

/-- The numbers in use. -/
theorem isSome_iff (h : Filed first get log) (id : BoundedInt lo hi) :
    (get id).isSome ↔ (first : Int) ≤ id.val ∧ id.val < first + log.length := by
  rw [h id]
  split
  · rw [isSome_getElem?]
    omega
  · simp only [Option.isSome_none, Bool.false_eq_true, false_iff]
    omega

/-- One more entry, under the next number. -/
theorem push (h : Filed first get log) {next : BoundedInt lo hi}
    (hnext : next.val = first + log.length) (v : V)
    (hget : ∀ id, get' id = if id = next then some v else get id) :
    Filed first get' (log ++ [v]) := by
  intro id
  rw [hget]
  by_cases hid : id = next
  · rw [if_pos hid, hid, if_pos (by omega)]
    have hidx : (next.val - first).toNat = log.length := by omega
    rw [hidx, List.getElem?_concat_length]
  · have hval : id.val ≠ next.val := fun he => hid (BoundedInt.ext he)
    rw [if_neg hid, h id]
    split
    · rw [List.getElem?_append]
      split
      · rfl
      · next hlt =>
        rw [List.getElem?_eq_none (by omega), List.getElem?_eq_none]
        simp only [List.length_singleton]
        omega
    · rfl

/-- An entry of the log is found under its number. -/
theorem get_of_getElem? (h : Filed first get log) {id : BoundedInt lo hi} {n : Nat} {v : V}
    (hid : id.val = first + n) (hv : log[n]? = some v) : get id = some v := by
  rw [h id, if_pos (by omega)]
  have hidx : (id.val - first).toNat = n := by omega
  rw [hidx, hv]

end Filed

theorem filterMap_range_getElem? (log : List V) :
    (List.range log.length).filterMap (fun k => log[k]?) = log := by
  have hmap : (List.range log.length).map (fun k => log[k]?) = log.map some := by
    refine List.ext_getElem (by rw [List.length_map, List.length_range, List.length_map]) ?_
    intro k hk hk'
    rw [List.length_map] at hk'
    rw [List.getElem_map, List.getElem_range, List.getElem_map, List.getElem?_eq_getElem hk']
  have hid := List.filterMap_map (l := List.range log.length) (f := fun k => log[k]?) (g := id)
  rw [hmap, List.filterMap_map] at hid
  exact hid.symm.trans List.filterMap_some

/-- Reading the numbers below the count in order reads the log. -/
theorem Filed.upTo {get : U32 → Option V} {log : List V} (h : Filed 0 get log) {count : U32}
    (hcount : count.val = log.length) : count.upTo.filterMap get = log := by
  have hn : count.val.toNat = log.length := by omega
  rw [BoundedInt.upTo, List.filterMap_filterMap, hn]
  refine (List.filterMap_congr fun k hk => ?_).trans (filterMap_range_getElem? log)
  have hlt := List.mem_range.mp hk
  have hmax := count.le_hi
  have hread : BoundedInt.ofInt? (k : Int) = some (⟨k, by omega, by omega⟩ : U32) :=
    BoundedInt.ofInt?_eq_some.mpr rfl
  rw [hread, List.getElem?_eq_getElem hlt]
  exact h.get_of_getElem? (Int.zero_add _).symm (List.getElem?_eq_getElem hlt)

end Log

/-! ## Readers -/

variable {V : Type}

/-- The numbers of the range `a..b`, in order. -/
def indices (a b : Int) : List U32 :=
  (List.range (b - a).toNat).filterMap fun k : Nat => BoundedInt.ofInt? (a + k)

/-- The loop of a paged reader over a log whose entries are stored under their numbers. -/
def readPage (get : U32 → Option V) (count startIndex limit : U32) : Outcome (List V) := do
  let sum ← startIndex.add limit
  let endIndex := min sum count
  pure ((indices startIndex.val endIndex.val).filterMap get)

/-- The entries with an index from `start` on and below `start + limit`, in order. -/
def pageOf (log : List V) (start limit : U32) : List V :=
  (log.drop start.val.toNat).take limit.val.toNat

/-- The reader returns the page where its end is a `u32`, and nothing elsewhere. -/
def PagedBy (read : U32 → U32 → Outcome (List V)) (log : List V) : Prop :=
  ∀ start limit page, read start limit = .ok page ↔
    start.val + limit.val ≤ 4294967295 ∧ page = pageOf log start limit

/-! ## Stored logs -/

/-- The entries are stored under the numbers below the count. -/
structure Stored (get : U32 → Option V) (count : U32) (log : List V) : Prop where
  filed : Filed 0 get log
  count_eq : count.val = log.length

theorem Stored.push {get get' : U32 → Option V} {count count' : U32} {log : List V}
    (h : Stored get count log) (v : V)
    (hget : ∀ id, get' id = if id = count then some v else get id)
    (hcount : count'.val = count.val + 1) : Stored get' count' (log ++ [v]) := by
  have hlen := h.count_eq
  refine ⟨h.filed.push (by omega) v hget, ?_⟩
  rw [List.length_append, List.length_singleton]
  omega

/-- A run whose accepted calls append to the log or leave it alone keeps it stored. -/
theorem stored_after {S I : Type} {exec : S → I → Outcome S} {s₀ : S} (get : S → U32 → Option V)
    (count : S → U32) (hstart : ∃ log, Stored (get s₀) (count s₀) log)
    (hstep : ∀ e i s', exec (after exec s₀ e) i = .ok s' →
      (get s' = get (after exec s₀ e) ∧ count s' = count (after exec s₀ e)) ∨
      ∃ v, (∀ id, get s' id =
          if id = count (after exec s₀ e) then some v else get (after exec s₀ e) id) ∧
        (count s').val = (count (after exec s₀ e)).val + 1)
    (past : List I) :
    ∃ log, Stored (get (after exec s₀ past)) (count (after exec s₀ past)) log := by
  refine after_history (P := fun _ s => ∃ log, Stored (get s) (count s) log) hstart ?_ ?_ past
  · rintro e i s s' rfl ⟨log, hlog⟩ he
    rcases hstep e i s' he with ⟨hget, hcount⟩ | ⟨v, hget, hcount⟩
    · rw [hget, hcount]
      exact ⟨log, hlog⟩
    · exact ⟨log ++ [v], hlog.push v hget hcount⟩
  · exact fun _ _ _ _ _ hlog _ => hlog

/-! ## One page -/

section Indices

variable {log : List V} {a b : Int}

theorem mem_indices {i : U32} : i ∈ indices a b ↔ a ≤ i.val ∧ i.val < b := by
  rw [indices, List.mem_filterMap]
  constructor
  · rintro ⟨k, hk, hi⟩
    rw [List.mem_range] at hk
    rw [BoundedInt.ofInt?_eq_some.mp hi]
    omega
  · rintro ⟨hle, hlt⟩
    refine ⟨(i.val - a).toNat, List.mem_range.mpr (by omega), BoundedInt.ofInt?_eq_some.mpr ?_⟩
    omega

/-- Reading a range of numbers reads that range of the log. -/
theorem indices_filterMap (ha : 0 ≤ a) (hb : b ≤ 4294967295) (hlog : b ≤ log.length)
    {get : U32 → Option V} (hget : ∀ i ∈ indices a b, get i = log[i.val.toNat]?) :
    (indices a b).filterMap get = (log.drop a.toNat).take (b - a).toNat := by
  have hlen : ((log.drop a.toNat).take (b - a).toNat).length = (b - a).toNat := by
    rw [List.length_take, List.length_drop]
    omega
  rw [← filterMap_range_getElem? ((log.drop a.toNat).take (b - a).toNat), hlen, indices,
    List.filterMap_filterMap]
  refine List.filterMap_congr fun k hk => ?_
  have hlt := List.mem_range.mp hk
  have hread : BoundedInt.ofInt? (a + k) = some (⟨a + k, by omega, by omega⟩ : U32) :=
    BoundedInt.ofInt?_eq_some.mpr rfl
  have hmem : (⟨a + k, by omega, by omega⟩ : U32) ∈ indices a b :=
    mem_indices.mpr ⟨by show a ≤ a + k; omega, by show a + k < b; omega⟩
  rw [hread, List.getElem?_take_of_lt hlt, List.getElem?_drop]
  refine (hget _ hmem).trans ?_
  show log[(a + k).toNat]? = _
  congr 1
  omega

/-- Cutting a page off at the end of the log does not change it. -/
theorem pageOf_eq (log : List V) (start limit : U32) :
    (log.drop start.val.toNat).take
        (min (start.val + limit.val) (log.length : Int) - start.val).toNat =
      pageOf log start limit := by
  have hstart := start.lo_le
  have hlimit := limit.lo_le
  unfold pageOf
  rcases le_total (start.val + limit.val) (log.length : Int) with hle | hle
  · rw [min_eq_left hle]
    congr 1
    omega
  · rw [min_eq_right hle, List.take_of_length_le, List.take_of_length_le]
    · rw [List.length_drop]
      omega
    · rw [List.length_drop]
      omega

end Indices

/-- The loop reads pages of a stored log. -/
theorem Stored.pagedBy {get : U32 → Option V} {log : List V} {count : U32}
    (h : Stored get count log) : PagedBy (readPage get count) log := by
  obtain ⟨hlog, hcount⟩ := h
  intro start limit page
  have hstart := start.lo_le
  have hend := count.le_hi
  have hpage : (indices start.val (min (start.val + limit.val) count.val)).filterMap get =
      pageOf log start limit := by
    have hread : ∀ i ∈ indices start.val (min (start.val + limit.val) count.val),
        get i = log[i.val.toNat]? := by
      intro i _
      have hi := i.lo_le
      rw [hlog i, Nat.cast_zero, if_pos hi, Int.sub_zero]
    rw [indices_filterMap hstart (by omega) (by omega) hread, hcount, pageOf_eq]
  simp only [readPage, bind_eq_ok, BoundedInt.add_eq_ok, pure_eq_ok]
  constructor
  · rintro ⟨sum, hsum, rfl⟩
    have hfits := sum.le_hi
    rw [BoundedInt.min_val, hsum]
    exact ⟨by omega, hpage⟩
  · rintro ⟨hfits, rfl⟩
    have hlimit := limit.lo_le
    refine ⟨⟨start.val + limit.val, by omega, by omega⟩, rfl, ?_⟩
    rw [BoundedInt.min_val]
    exact hpage

/-! ## All pages -/

/-- `⌈n / p⌉`, the number of pages of size `p` of `n` entries. -/
def pageCount (n p : Nat) : Nat := (n + p - 1) / p

/-- The page of number `k`: the start is a `u32` the caller computes. -/
def readNth (read : U32 → U32 → Outcome (List V)) (p : U32) (k : Nat) : Outcome (List V) := do
  let start ← BoundedInt.orOverflow (BoundedInt.ofInt? (k * p.val))
  read start p

/-- The pages at 0, p, 2p, ... of `n` entries, one after the other. -/
def readAll (read : U32 → U32 → Outcome (List V)) (n : Nat) (p : U32) : Outcome (List V) := do
  let pages ← (List.range (pageCount n p.val.toNat)).mapM (readNth read p)
  pure pages.flatten

section MapM

variable {α β : Type}

theorem mapM_eq_ok {l : List α} {f : α → Outcome β} {g : α → β} (h : ∀ a ∈ l, f a = .ok (g a)) :
    l.mapM f = .ok (l.map g) := by
  induction l with
  | nil => rfl
  | cons a l ih =>
    rw [List.mapM_cons, h a List.mem_cons_self, ok_bind,
      ih fun b hb => h b (List.mem_cons_of_mem a hb)]
    rfl

theorem ok_of_mapM {l : List α} {f : α → Outcome β} {bs : List β} (h : l.mapM f = .ok bs) {a : α}
    (ha : a ∈ l) : ∃ b, f a = .ok b := by
  induction l generalizing bs with
  | nil => cases ha
  | cons c l ih =>
    rw [List.mapM_cons] at h
    obtain ⟨b, hb, h⟩ := bind_eq_ok.mp h
    obtain ⟨bs', hbs, -⟩ := bind_eq_ok.mp h
    rcases List.mem_cons.mp ha with rfl | ha
    · exact ⟨b, hb⟩
    · exact ih hbs ha

end MapM

theorem flatten_pages (log : List V) (p m : Nat) :
    ((List.range m).map fun k => (log.drop (k * p)).take p).flatten = log.take (m * p) := by
  induction m with
  | zero => rw [Nat.zero_mul]; rfl
  | succ m ih =>
    rw [List.range_succ, List.map_append, List.flatten_append, ih, Nat.succ_mul, List.take_add,
      List.map_singleton, List.flatten_singleton]

theorem le_pageCount_mul {n p : Nat} (hp : 0 < p) : n ≤ pageCount n p * p := by
  have hlt := Nat.lt_div_mul_add (a := n + p - 1) hp
  unfold pageCount
  omega

namespace PagedBy

variable {read : U32 → U32 → Outcome (List V)} {log : List V}

/-- The page is returned exactly where its end is a `u32`. -/
theorem exact_iff (h : PagedBy read log) (start limit : U32) :
    read start limit = .ok (pageOf log start limit) ↔ start.val + limit.val ≤ 4294967295 := by
  rw [h]
  exact and_iff_left rfl

theorem readNth_eq_ok (h : PagedBy read log) {p : U32} {k : Nat}
    (hfits : (k + 1 : Int) * p.val ≤ 4294967295) :
    readNth read p k = .ok ((log.drop (k * p.val.toNat)).take p.val.toNat) := by
  have hp := p.lo_le
  have hstart : (0 : Int) ≤ k * p.val := Int.mul_nonneg (Int.natCast_nonneg k) hp
  rw [Int.add_mul, Int.one_mul] at hfits
  have hread : BoundedInt.ofInt? (k * p.val) = some (⟨k * p.val, hstart, by omega⟩ : U32) :=
    BoundedInt.ofInt?_eq_some.mpr rfl
  rw [readNth, hread]
  refine (h _ p _).mpr ⟨hfits, ?_⟩
  have hnat : (k * p.val).toNat = k * p.val.toNat := by
    rw [Int.toNat_mul (Int.natCast_nonneg k) hp, Int.toNat_natCast]
  show _ = (log.drop (k * p.val).toNat).take p.val.toNat
  rw [hnat]

/-- The pages make up the log exactly where the end of the last one is a `u32`. -/
theorem readAll_iff (h : PagedBy read log) {p : U32} (hp : 0 < p.val) :
    readAll read log.length p = .ok log ↔
      (pageCount log.length p.val.toNat : Int) * p.val ≤ 4294967295 := by
  have hcast : (p.val.toNat : Int) = p.val := Int.toNat_of_nonneg hp.le
  constructor
  · intro hall
    by_contra hover
    -- the page on which the largest `u32` lies
    have hbelow : 4294967295 / p.val * p.val ≤ 4294967295 := Int.ediv_mul_le _ hp.ne'
    have habove : 4294967295 < (4294967295 / p.val + 1) * p.val :=
      Int.lt_ediv_add_one_mul_self _ hp
    have hnonneg : 0 ≤ 4294967295 / p.val := Int.ediv_nonneg (by decide) hp.le
    have hlt : 4294967295 / p.val < pageCount log.length p.val.toNat :=
      Int.lt_of_mul_lt_mul_right (hbelow.trans_lt (not_le.mp hover)) hp.le
    have hk : ((4294967295 / p.val).toNat : Int) = 4294967295 / p.val :=
      Int.toNat_of_nonneg hnonneg
    obtain ⟨pages, hpages, -⟩ := bind_eq_ok.mp hall
    obtain ⟨page, hpage⟩ := ok_of_mapM hpages (List.mem_range.mpr
      (show (4294967295 / p.val).toNat < pageCount log.length p.val.toNat by omega))
    obtain ⟨start, hstart, hread⟩ := bind_eq_ok.mp hpage
    have hfits := ((h start p page).mp hread).1
    rw [BoundedInt.orOverflow_eq_ok, BoundedInt.ofInt?_eq_some, hk] at hstart
    rw [Int.add_mul, Int.one_mul] at habove
    omega
  · intro hfits
    have hpages : (List.range (pageCount log.length p.val.toNat)).mapM (readNth read p) =
        .ok ((List.range (pageCount log.length p.val.toNat)).map fun k =>
          (log.drop (k * p.val.toNat)).take p.val.toNat) := by
      refine mapM_eq_ok fun k hk => h.readNth_eq_ok ?_
      have hlt : (k + 1 : Int) ≤ pageCount log.length p.val.toNat := by
        have := List.mem_range.mp hk
        omega
      exact (Int.mul_le_mul_of_nonneg_right hlt hp.le).trans hfits
    have hwhole : log.length ≤ pageCount log.length p.val.toNat * p.val.toNat :=
      le_pageCount_mul (by omega)
    rw [readAll, hpages, ok_bind, flatten_pages, List.take_of_length_le hwhole]
    rfl

end PagedBy

end Soroban
