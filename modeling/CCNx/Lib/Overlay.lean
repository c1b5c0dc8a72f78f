/-!
# Chunks written at the front of one buffer

`put buf c` is the buffer after `c` was written at its front, `puts buf cs` after each chunk was
written there in turn. Such a buffer holds the concatenation of the chunks, whatever was in it
before, only if at most one of them is not empty (`length_le_one_of_holds`, `take_puts`): a byte
past the end of every single chunk is never written (`getElem?_puts`).
-/

set_option autoImplicit false

namespace Overlay

variable {α : Type _}

def put (buf c : List α) : List α := c ++ buf.drop c.length

def puts (buf : List α) (cs : List (List α)) : List α := cs.foldl put buf

@[simp] theorem puts_nil (buf : List α) : puts buf [] = buf := rfl

@[simp] theorem puts_cons (buf c : List α) (cs : List (List α)) :
    puts buf (c :: cs) = puts (put buf c) cs := rfl

@[simp] theorem put_nil (buf : List α) : put buf [] = buf := by simp [put]

/-- Empty chunks write nothing. -/
theorem puts_filter (buf : List α) (cs : List (List α)) :
    puts buf (cs.filter (!·.isEmpty)) = puts buf cs := by
  induction cs generalizing buf with
  | nil => rfl
  | cons c cs ih =>
    cases c with
    | nil => simpa using ih buf
    | cons x c => simpa using ih (put buf (x :: c))

theorem flatten_filter (cs : List (List α)) : (cs.filter (!·.isEmpty)).flatten = cs.flatten := by
  induction cs with
  | nil => rfl
  | cons c cs ih =>
    cases c with
    | nil => simpa using ih
    | cons x c => simp [ih]

/-- What lies past the end of every chunk is never written. -/
theorem getElem?_puts {buf : List α} {cs : List (List α)} {i : Nat}
    (h : ∀ c ∈ cs, c.length ≤ i) : (puts buf cs)[i]? = buf[i]? := by
  induction cs generalizing buf with
  | nil => rfl
  | cons c cs ih =>
    have hc : c.length ≤ i := h c List.mem_cons_self
    rw [puts_cons, ih fun d hd => h d (List.mem_cons_of_mem _ hd), put,
      List.getElem?_append_right hc, List.getElem?_drop]
    congr 1
    omega

/-- With at most one chunk that is not empty, the buffer starts with all that was written. -/
theorem take_puts {buf : List α} {cs : List (List α)}
    (h : (cs.filter (!·.isEmpty)).length ≤ 1) :
    (puts buf cs).take cs.flatten.length = cs.flatten := by
  rw [← puts_filter, ← flatten_filter]
  generalize cs.filter (!·.isEmpty) = ds at h
  match ds, h with
  | [], _ => simp
  | [c], _ => simp [put]

/-- Of two or more chunks, none of them empty, each is shorter than all of them together. -/
theorem length_lt_flatten {cs : List (List α)} (hne : ∀ c ∈ cs, c ≠ []) (h : 2 ≤ cs.length)
    {c : List α} (hc : c ∈ cs) : c.length < cs.flatten.length := by
  obtain ⟨as, bs, rfl⟩ := List.append_of_mem hc
  have hother : 0 < (as ++ bs).flatten.length := by
    match hab : as ++ bs with
    | [] =>
      obtain ⟨rfl, rfl⟩ := List.append_eq_nil_iff.1 hab
      simp at h
    | d :: ds =>
      have hd : d ∈ as ++ c :: bs := by
        have : d ∈ as ++ bs := hab ▸ List.mem_cons_self
        rw [List.mem_append] at this ⊢
        exact this.imp id (List.mem_cons_of_mem _)
      have := List.length_pos_iff.2 (hne d hd)
      simp only [List.flatten_cons, List.length_append]
      omega
  simp only [List.flatten_append, List.flatten_cons, List.length_append] at hother ⊢
  omega

/-- If the buffer starts with all that was written whatever it held before, then at most one chunk
was not empty. -/
theorem length_le_one_of_holds {cs : List (List α)} {n : Nat} (x y : α)
    (hxy : x ≠ y) (hn : cs.flatten.length ≤ n)
    (h : ∀ buf : List α, buf.length = n → (puts buf cs).take cs.flatten.length = cs.flatten) :
    (cs.filter (!·.isEmpty)).length ≤ 1 := by
  apply Classical.byContradiction
  intro hlen
  have hlt : ∀ c ∈ cs.filter (!·.isEmpty), c.length < cs.flatten.length := fun c hc => by
    rw [← flatten_filter cs]
    exact length_lt_flatten (fun d hd => by simpa using (List.mem_filter.1 hd).2) (by omega) hc
  have hpos : 0 < cs.flatten.length := by
    obtain ⟨c, hc⟩ := List.exists_mem_of_length_pos (l := cs.filter (!·.isEmpty)) (by omega)
    exact Nat.lt_of_le_of_lt (Nat.zero_le _) (hlt c hc)
  -- the last byte of the content stands where no chunk reaches
  have hlast : ∀ b : α, cs.flatten[cs.flatten.length - 1]? = some b := fun b => by
    have hb : ((puts (List.replicate n b) cs).take cs.flatten.length)[cs.flatten.length - 1]? =
        some b := by
      rw [List.getElem?_take_of_lt (by omega), ← puts_filter, getElem?_puts,
        List.getElem?_replicate_of_lt (by omega)]
      intro c hc
      have := hlt c hc
      omega
    rwa [h _ (by simp)] at hb
  exact hxy (Option.some.inj ((hlast x).symm.trans (hlast y)))

end Overlay
