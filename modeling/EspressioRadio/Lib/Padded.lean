/-
Blocks padded to one width and glued: when the padding does not show.

`pad z c block` fills a block up to width `c` with `z`. A buffer of
padded blocks, cut off at some length, equals the plain concatenation of
the blocks exactly when the length is right and everything after a block
short of the width is `z` anyway (`take_padded_eq_iff`). The second part
is what a shift does: behind the padding every element reads one that
lies further left, and the leftmost of them is padding
(`eq_of_shifted`).
-/
import EspressioRadio.Lib.Chunks

namespace Chunks

variable {α : Type _} {z : α} {c : Nat} {blocks : List (List α)}

/-- Fill a block up to the width with `z`. -/
def pad (z : α) (c : Nat) (block : List α) : List α :=
  block ++ List.replicate (c - block.length) z

/-- The blocks, each padded to the width, glued together. -/
def padded (z : α) (c : Nat) (blocks : List (List α)) : List α :=
  blocks.flatMap (pad z c)

theorem pad_length {block : List α} (h : block.length ≤ c) :
    (pad z c block).length = c := by
  simp [pad]
  omega

theorem padded_cons (block : List α) (blocks : List (List α)) :
    padded z c (block :: blocks) = pad z c block ++ padded z c blocks := by
  simp [padded]

theorem padded_length (h : ∀ block ∈ blocks, block.length ≤ c) :
    (padded z c blocks).length = blocks.length * c := by
  induction blocks with
  | nil => simp [padded]
  | cons block blocks ih =>
      rw [padded_cons, List.length_append, pad_length (h block List.mem_cons_self),
        ih fun b hb => h b (List.mem_cons_of_mem _ hb), List.length_cons, Nat.add_mul]
      omega

theorem flatten_length_le (h : ∀ block ∈ blocks, block.length ≤ c) :
    blocks.flatten.length ≤ blocks.length * c := by
  induction blocks with
  | nil => simp
  | cons block blocks ih =>
      have hblock := h block List.mem_cons_self
      have hrest := ih fun b hb => h b (List.mem_cons_of_mem _ hb)
      rw [List.flatten_cons, List.length_append, List.length_cons, Nat.add_mul]
      omega

/-- What `ys` has at a position is either `z` or something that stands in
`xs` no further to the right. -/
def Behind (z : α) (xs ys : List α) : Prop :=
  ∀ (j : Nat) (x : α), ys[j]? = some x → x = z ∨ ∃ i ≤ j, xs[i]? = some x

/-- Padding moves elements to the right only: the padded blocks are behind
the plain ones. -/
theorem padded_behind (z : α) (c : Nat) (blocks : List (List α)) :
    Behind z blocks.flatten (padded z c blocks) := by
  intro j x hx
  induction blocks generalizing j with
  | nil => simp [padded] at hx
  | cons block blocks ih =>
      rw [padded_cons, pad, List.append_assoc] at hx
      rw [List.flatten_cons]
      rcases Nat.lt_or_ge j block.length with hin | hout
      · rw [List.getElem?_append_left hin] at hx
        exact Or.inr ⟨j, Nat.le_refl j, by rwa [List.getElem?_append_left hin]⟩
      · rw [List.getElem?_append_right hout] at hx
        rcases Nat.lt_or_ge (j - block.length) (c - block.length) with hpad | hnext
        · rw [List.getElem?_append_left (by simpa using hpad)] at hx
          exact Or.inl (List.eq_of_mem_replicate (List.mem_of_getElem? hx))
        · rw [List.getElem?_append_right (by simpa using hnext)] at hx
          rcases ih _ hx with hz | ⟨i, hi, hix⟩
          · exact Or.inl hz
          · rw [List.length_replicate] at hi
            refine Or.inr ⟨block.length + i, by omega, ?_⟩
            rw [List.getElem?_append_right (by omega), Nat.add_sub_cancel_left]
            exact hix

/-- A list that reads the same when it is shifted right behind some padding
is padding throughout. -/
theorem eq_of_shifted {xs ys : List α} {s : Nat} (hs : 0 < s)
    (hys : Behind z xs ys)
    (heq : (List.replicate s z ++ ys).take xs.length = xs) : ∀ x ∈ xs, x = z := by
  have hall : ∀ (j : Nat) (x : α), xs[j]? = some x → x = z := by
    intro j
    induction j using Nat.strongRecOn with
    | ind j ih =>
        intro x hx
        have hj : j < xs.length := (List.getElem?_eq_some_iff.mp hx).1
        rw [← heq, List.getElem?_take_of_lt hj] at hx
        rcases Nat.lt_or_ge j s with hin | hout
        · rw [List.getElem?_append_left (by simpa using hin)] at hx
          exact List.eq_of_mem_replicate (List.mem_of_getElem? hx)
        · rw [List.getElem?_append_right (by simpa using hout),
            List.length_replicate] at hx
          rcases hys _ x hx with hz | ⟨i, hi, hix⟩
          · exact hz
          · exact ih i (by omega) x hix
  intro x hx
  obtain ⟨j, hj⟩ := List.mem_iff_getElem?.mp hx
  exact hall j x hj

/-- A list of padding alone is what is cut off, at its length, from any
padding and what is behind it. -/
private theorem take_all_padding {xs ys : List α} {s : Nat}
    (hxs : ∀ x ∈ xs, x = z) (hlen : xs.length ≤ s + ys.length)
    (hys : Behind z xs ys) :
    (List.replicate s z ++ ys).take xs.length = xs := by
  have hys' : ∀ y ∈ ys, y = z := by
    intro y hy
    obtain ⟨j, hj⟩ := List.mem_iff_getElem?.mp hy
    rcases hys j y hj with hz | ⟨i, -, hi⟩
    · exact hz
    · exact hxs y (List.mem_of_getElem? hi)
  rw [List.eq_replicate_of_mem hxs, List.eq_replicate_of_mem hys', List.length_replicate,
    List.replicate_append_replicate, List.take_replicate, Nat.min_eq_left hlen]

/-- The first block apart: the padded blocks start with the plain ones
exactly when, behind the padding of the first, the padded rest starts with
the plain rest. -/
private theorem take_padded_cons {block : List α} {total : Nat}
    (htotal : total = block.length + blocks.flatten.length) :
    (padded z c (block :: blocks)).take total = block ++ blocks.flatten
      ↔ (List.replicate (c - block.length) z ++ padded z c blocks).take
          blocks.flatten.length = blocks.flatten := by
  rw [padded_cons, pad, List.append_assoc, htotal, List.take_length_add_append]
  exact List.append_right_inj block

/-- Cut off at `total`, the padded blocks are the plain ones exactly when
`total` is the length of those and nothing but `z` comes after a short
block. -/
theorem take_padded_eq_iff {total : Nat} (hle : ∀ block ∈ blocks, block.length ≤ c)
    (htotal : total ≤ blocks.length * c) :
    (padded z c blocks).take total = blocks.flatten
      ↔ total = blocks.flatten.length
        ∧ ∀ before block after, blocks = before ++ block :: after →
          block.length < c → ∀ x ∈ after.flatten, x = z := by
  have hsize : (padded z c blocks).take total = blocks.flatten →
      total = blocks.flatten.length := by
    intro heq
    have hlen := congrArg List.length heq
    rw [List.length_take, padded_length hle] at hlen
    omega
  rw [← and_iff_right_of_imp hsize, and_congr_right_iff]
  -- block by block, on the rest of the list and its own length
  clear hsize
  intro hsize
  induction blocks generalizing total with
  | nil =>
      subst hsize
      simp
  | cons block blocks ih =>
      have hblock := hle block List.mem_cons_self
      have hrest : ∀ b ∈ blocks, b.length ≤ c :=
        fun b hb => hle b (List.mem_cons_of_mem _ hb)
      have hflat := flatten_length_le hrest
      rw [List.flatten_cons, List.length_append] at hsize
      rw [List.flatten_cons, take_padded_cons hsize]
      rcases Nat.eq_or_lt_of_le hblock with hfull | hshort
      · -- a full block shifts nothing
        rw [hfull, Nat.sub_self, List.replicate_zero, List.nil_append,
          ih hrest hflat rfl]
        constructor
        · rintro hall (- | ⟨b, before⟩) short after heq hlt
          · obtain ⟨rfl, rfl⟩ := List.cons.inj heq
            omega
          · obtain ⟨-, heq'⟩ := List.cons.inj heq
            exact hall before short after heq' hlt
        · exact fun hall before short after heq =>
            hall (block :: before) short after (by rw [heq]; rfl)
      · -- a short one leaves nothing but padding behind it
        have hbehind := padded_behind z c blocks
        constructor
        · intro heq
          have hzero := eq_of_shifted (by omega) hbehind heq
          rintro (- | ⟨b, before⟩) short after hsplit - x hx
          · obtain ⟨rfl, rfl⟩ := List.cons.inj hsplit
            exact hzero x hx
          · have htail : blocks = before ++ short :: after :=
              (List.cons.inj hsplit).2
            apply hzero x
            rw [htail, List.flatten_append, List.flatten_cons]
            exact List.mem_append_right _ (List.mem_append_right _ hx)
        · intro hall
          apply take_all_padding _ _ hbehind
          · exact hall [] block blocks rfl hshort
          · rw [padded_length hrest]
            omega

-- ============================================== a buffer, block by block

variable {buf src : List α} {i j : Nat}

/-- A chunk copied into its own window of an untouched buffer stands there
padded to the window. -/
theorem chunk_patch_self (hsrc : src.length ≤ c) (hbuf : (i + 1) * c ≤ buf.length)
    (hempty : chunk buf c i = List.replicate c z) :
    chunk (patch buf (i * c) src) c i = pad z c src := by
  rw [Nat.add_mul, Nat.one_mul] at hbuf
  refine List.ext_getElem? fun r => ?_
  rcases Nat.lt_or_ge r c with hr | hr
  · rw [chunk_getElem? _ hr, pad]
    rcases Nat.lt_or_ge r src.length with hin | hout
    · rw [patch_getElem?_inside (by omega) (by omega) (by omega),
        List.getElem?_append_left hin, Nat.add_sub_cancel_left]
    · rw [patch_getElem?_outside (by omega) (Or.inr (by omega)),
        ← chunk_getElem? buf hr, hempty, List.getElem?_append_right hout,
        List.getElem?_replicate, List.getElem?_replicate, if_pos hr,
        if_pos (by omega)]
  · have hshort := chunk_length_le (patch buf (i * c) src) c i
    have hpad := pad_length (z := z) hsrc
    rw [List.getElem?_eq_none (by omega), List.getElem?_eq_none (by omega)]

/-- Copying a chunk into one window leaves what is in the other windows
alone. -/
theorem chunk_patch_other (hsrc : src.length ≤ c) (hbuf : (i + 1) * c ≤ buf.length)
    (hij : j ≠ i) : chunk (patch buf (i * c) src) c j = chunk buf c j := by
  rw [Nat.add_mul, Nat.one_mul] at hbuf
  refine List.ext_getElem? fun r => ?_
  rcases Nat.lt_or_ge r c with hr | hr
  · rw [chunk_getElem? _ hr, chunk_getElem? _ hr]
    apply patch_window_outside hsrc (by omega)
    rw [mul_add_div hr]
    exact hij
  · have hpatch := chunk_length_le (patch buf (i * c) src) c j
    have hold := chunk_length_le buf c j
    rw [List.getElem?_eq_none (by omega), List.getElem?_eq_none (by omega)]

end Chunks
