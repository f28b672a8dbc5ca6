/-
Lists cut into chunks of one width, and lists written in place: the
arithmetic a fragmenter and a reassembly buffer share.

# The vocabulary

- `chunk l c i` is the `i`-th window of width `c`, short only at the
  end of the list;
- `chunkCount n c` is how many windows a list of length `n` has, where
  the empty list still has one (empty) window;
- `patch buf off src` overwrites `buf` from `off` on with `src`, the
  list reading of a block copy.

Positions are read with `getElem?` throughout: element `j` of the list
lies in window `j / c` at offset `j % c`, and every fact below is that
division read one way or the other.
-/
import Mathlib.Data.List.Basic
import Mathlib.Tactic.Ring

namespace Chunks

variable {α : Type _}

-- ============================================================ windows

/-- The `i`-th window of width `c`, shorter at the list's end. -/
def chunk (l : List α) (c i : Nat) : List α := (l.drop (i * c)).take c

/-- The number of windows of width `c` a list of length `n` is cut
into; an empty list is carried by one empty window. -/
def chunkCount (n c : Nat) : Nat := if n = 0 then 1 else (n + c - 1) / c

/-- A window is as wide as it should be, or as what is left of the list. -/
theorem chunk_length (l : List α) (c i : Nat) :
    (chunk l c i).length = min c (l.length - i * c) := by
  simp [chunk]

theorem chunk_length_le (l : List α) (c i : Nat) :
    (chunk l c i).length ≤ c := by
  rw [chunk_length]
  exact Nat.min_le_left _ _

/-- A window read positionally reads the list from the window's start on. -/
theorem chunk_getElem? (l : List α) {c i r : Nat} (hr : r < c) :
    (chunk l c i)[r]? = l[i * c + r]? := by
  unfold chunk
  rw [List.getElem?_take_of_lt hr, List.getElem?_drop]

theorem chunkCount_pos {n c : Nat} (hc : 0 < c) : 0 < chunkCount n c := by
  unfold chunkCount
  split
  · exact Nat.one_pos
  · exact Nat.div_pos (by omega) hc

/-- All windows but the last fit strictly inside a nonempty list: the last
one is not empty. -/
theorem pred_chunkCount_mul_lt {n c : Nat} (hn : 0 < n) (hc : 0 < c) :
    (chunkCount n c - 1) * c < n := by
  unfold chunkCount
  rw [if_neg (by omega)]
  have hmul := Nat.div_mul_le_self (n + c - 1) c
  rw [Nat.sub_mul, Nat.one_mul]
  omega

/-- All windows but the last fit inside any list; of an empty one there are
none. -/
theorem pred_chunkCount_mul_le (n : Nat) {c : Nat} (hc : 0 < c) :
    (chunkCount n c - 1) * c ≤ n := by
  rcases Nat.eq_zero_or_pos n with rfl | hn
  · simp [chunkCount]
  · exact Nat.le_of_lt (pred_chunkCount_mul_lt hn hc)

/-- The windows cover the list: there is one for every element. -/
theorem le_chunkCount_mul (n : Nat) {c : Nat} (hc : 0 < c) :
    n ≤ chunkCount n c * c := by
  unfold chunkCount
  split
  · omega
  · have hlt : n + c - 1 < ((n + c - 1) / c + 1) * c := by
      rw [Nat.mul_comm]
      exact Nat.lt_mul_div_succ _ hc
    rw [Nat.add_mul] at hlt
    omega

/-- Every element lies in one of the windows, the one its index divided by
the width names. -/
theorem div_lt_chunkCount {n c j : Nat} (hc : 0 < c) (hj : j < n) :
    j / c < chunkCount n c :=
  (Nat.div_lt_iff_lt_mul hc).mpr (Nat.lt_of_lt_of_le hj (le_chunkCount_mul n hc))

/-- The full windows before the last, and the last, add up to the length of
the list. -/
theorem pred_mul_add_chunk_length {l : List α} {c : Nat} (hc : 0 < c) :
    (chunkCount l.length c - 1) * c
        + (chunk l c (chunkCount l.length c - 1)).length
      = l.length := by
  have hle := pred_chunkCount_mul_le l.length hc
  have hcov := le_chunkCount_mul l.length hc
  have hpos := chunkCount_pos (n := l.length) hc
  have hsplit : chunkCount l.length c * c
      = (chunkCount l.length c - 1) * c + c := by
    rw [Nat.sub_mul, Nat.one_mul]
    have : c ≤ chunkCount l.length c * c := Nat.le_mul_of_pos_left c hpos
    omega
  rw [chunk_length]
  omega

/-- The element at place `r` of window `i` has window `i` as the quotient of
its index. -/
theorem mul_add_div {c i r : Nat} (hr : r < c) : (i * c + r) / c = i := by
  rw [Nat.mul_comm, Nat.mul_add_div (by omega), Nat.div_eq_of_lt hr,
    Nat.add_zero]

/-- Gluing the first `k` windows gives the first `k * c` elements, as many
of them as there are. -/
theorem flatMap_chunk_range (l : List α) (c k : Nat) :
    (List.range k).flatMap (chunk l c) = l.take (k * c) := by
  induction k with
  | zero => simp
  | succ k ih =>
      rw [List.range_succ, List.flatMap_append, ih, List.flatMap_singleton,
        Nat.add_mul, Nat.one_mul, List.take_add]
      rfl

-- ======================================================== block copies

/-- The buffer overwritten from position `off` on with `src`. -/
def patch (buf : List α) (off : Nat) (src : List α) : List α :=
  buf.take off ++ src ++ buf.drop (off + src.length)

/-- Overwriting inside the buffer does not change its length. -/
theorem patch_length {buf src : List α} {off : Nat}
    (h : off + src.length ≤ buf.length) :
    (patch buf off src).length = buf.length := by
  simp only [patch, List.length_append, List.length_take, List.length_drop]
  omega

/-- Inside the copied block the source is read, at its own index. -/
theorem patch_getElem?_inside {buf src : List α} {off j : Nat}
    (hoff : off ≤ buf.length) (hlo : off ≤ j) (hhi : j < off + src.length) :
    (patch buf off src)[j]? = src[j - off]? := by
  have htake : (buf.take off).length = off := by simp [hoff]
  unfold patch
  rw [List.append_assoc, List.getElem?_append_right (by omega), htake,
    List.getElem?_append_left (by omega)]

/-- Outside the copied block the buffer reads as before. -/
theorem patch_getElem?_outside {buf src : List α} {off j : Nat}
    (h : off + src.length ≤ buf.length)
    (hj : j < off ∨ off + src.length ≤ j) :
    (patch buf off src)[j]? = buf[j]? := by
  have htake : (buf.take off).length = off := by simp; omega
  unfold patch
  rw [List.append_assoc]
  rcases hj with hlt | hge
  · rw [List.getElem?_append_left (by omega), List.getElem?_take_of_lt hlt]
  · rw [List.getElem?_append_right (by omega), htake,
      List.getElem?_append_right (by omega), List.getElem?_drop]
    congr 1
    omega

/-- A block no wider than a window, copied into window `i`, changes no
element of any other window. -/
theorem patch_window_outside {buf src : List α} {c i j : Nat} (hsrc : src.length ≤ c)
    (hbuf : i * c + src.length ≤ buf.length) (hij : j / c ≠ i) :
    (patch buf (i * c) src)[j]? = buf[j]? := by
  rcases Nat.eq_zero_or_pos c with rfl | hc
  · apply patch_getElem?_outside hbuf
    exact Or.inr (by omega)
  · have hdiv := Nat.div_add_mod j c
    have hmod := Nat.mod_lt j hc
    rw [Nat.mul_comm] at hdiv
    apply patch_getElem?_outside hbuf
    rcases Nat.lt_or_gt_of_ne hij with hlt | hgt
    · have hmul := Nat.mul_le_mul_right c hlt
      rw [Nat.succ_mul] at hmul
      exact Or.inl (by omega)
    · have hmul := Nat.mul_le_mul_right c hgt
      rw [Nat.succ_mul] at hmul
      exact Or.inr (by omega)

/-- A list's own window copied into its place in any buffer reads like the
list there. -/
theorem patch_window_inside {buf l : List α} {c i j : Nat} (hc : 0 < c)
    (hbuf : i * c + (chunk l c i).length ≤ buf.length) (hj : j < l.length)
    (hij : j / c = i) : (patch buf (i * c) (chunk l c i))[j]? = l[j]? := by
  have hdiv := Nat.div_add_mod j c
  have hmod := Nat.mod_lt j hc
  rw [Nat.mul_comm, hij] at hdiv
  have hwin : j < i * c + (chunk l c i).length := by
    rw [chunk_length]
    omega
  rw [patch_getElem?_inside (by omega) (by omega) hwin, chunk_getElem? l (by omega)]
  congr 1
  omega

end Chunks
