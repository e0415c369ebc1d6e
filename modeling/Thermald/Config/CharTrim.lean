import Mathlib.Data.List.DropRight
import Thermald.Config.Xml

/-!
# Trimming in place

`char_trim` moves the start of a text forward over white space, and then looks for the last
character of the text that is not white space, from the end backwards. Where there is none, the
second scan goes on in front of the text, over the white space that the first one has passed and
out of the buffer. `char_trim_iff` says exactly which texts are trimmed, and
`char_trim_text` that what the parser gets for them is `charTrim`.

A buffer is the list of its bytes, and `none` stands for an access outside of it, or for a sum that
is no `int`.
-/

namespace Thermald

/-! ## The function -/

/-- The loop over white space, from a place of the buffer on. -/
def skipSpace : Bytes → Nat → Option Nat
  | [], _ => none
  | b :: rest, p => if isSpace b then skipSpace rest (p + 1) else some p

/-- `strlen` of the string at a place. -/
def strlen (buf : Bytes) (p : Nat) : Option Nat :=
  if 0 ∈ buf.drop p then some ((buf.drop p).takeWhile fun b => b ≠ 0).length else none

/-- The loop back over white space, from the place before this one on. -/
def scanBack (buf : Bytes) : Nat → Option Nat
  | 0 => none
  | k + 1 =>
      match buf[k]? with
      | none => none
      | some b => if isSpace b then scanBack buf k else some k

/-- The two functions `char_trim`, behind their check for a null pointer: the place that is
returned, and the buffer. The length is assigned to an `int`, and the loop index `i` is one. -/
def trimInPlace (buf : Bytes) : Option (Nat × Bytes) := do
  let first ← buf.head?
  if first = 0 then pure (0, buf)
  else
    let p ← skipSpace buf 0
    let length ← strlen buf p
    let last ← scanBack buf (p + int32 (length - 1) + 1).toNat
    let i : Int := last - p
    if i = intMax then none
    else if last + 1 < buf.length then pure (p, buf.set (last + 1) 0)
    else none

/-- `cthd_parse::char_trim`. -/
def parseCharTrim (buf : Bytes) : Option (Nat × Bytes) := trimInPlace buf

/-- `cthd_features_parse::char_trim`. -/
def featuresCharTrim (buf : Bytes) : Option (Nat × Bytes) := trimInPlace buf

/-! ## What it is for -/

/-- A text without the white space around it. -/
def trimmed (s : Bytes) : Bytes := (s.dropWhile isSpace).rdropWhile isSpace

/-- The function touches only the buffer of the string, and the string at the place that it returns
is the trimmed one. -/
def Trims (trim : Bytes → Option (Nat × Bytes)) (s : Bytes) : Prop :=
  ∃ p buf, trim (s ++ [0]) = some (p, buf) ∧ buf.length = s.length + 1 ∧
    0 ∈ buf.drop p ∧ ((buf.drop p).takeWhile fun b => b ≠ 0) = trimmed s

/-- The condition on a string: it is empty, or it has a character that is not white space, an `int`
counts the characters up to the last one of these, and so far the length reaches that was reduced
to an `int`. -/
def Trimmable (s : Bytes) : Prop :=
  s = [] ∨ trimmed s ≠ [] ∧ ((trimmed s).length : Int) ≤ intMax ∧
    ((trimmed s).length : Int) - 1 ≤ int32 ((s.dropWhile isSpace).length - 1)

/-! ## The loops -/

/-- The first loop stops behind the white space. -/
theorem skip_space_append {lead rest : Bytes} (hlead : ∀ b ∈ lead, isSpace b = true) {b : UInt8}
    (hb : isSpace b = false) (p : Nat) :
    skipSpace (lead ++ b :: rest) p = some (p + lead.length) := by
  induction lead generalizing p with
  | nil => simp [skipSpace, hb]
  | cons c lead ih =>
      have hc : isSpace c = true := hlead c List.mem_cons_self
      have hrest := ih (fun d hd => hlead d (List.mem_cons_of_mem _ hd)) (p + 1)
      simp only [List.cons_append, skipSpace, hc, if_true, hrest, List.length_cons]
      congr 1
      omega

/-- The second loop stops at the last character that is not white space. -/
theorem scan_back_found {buf : Bytes} {k q : Nat} {b : UInt8} (hq : q < k)
    (hget : buf[q]? = some b) (hb : isSpace b = false)
    (habove : ∀ r, q < r → r < k → ∃ c, buf[r]? = some c ∧ isSpace c = true) :
    scanBack buf k = some q := by
  induction k with
  | zero => omega
  | succ k ih =>
      by_cases hlast : q = k
      · subst hlast
        simp [scanBack, hget, hb]
      · obtain ⟨c, hc, hspace⟩ := habove k (by omega) (by omega)
        have hrest := ih (by omega) fun r hr hrk => habove r hr (by omega)
        simp [scanBack, hc, hspace, hrest]

/-- Where there is none it leaves the buffer. -/
theorem scan_back_none {buf : Bytes} {k : Nat}
    (h : ∀ r, r < k → ∃ c, buf[r]? = some c ∧ isSpace c = true) : scanBack buf k = none := by
  induction k with
  | zero => rfl
  | succ k ih =>
      obtain ⟨c, hc, hspace⟩ := h k (by omega)
      simp [scanBack, hc, hspace, ih fun r hr => h r (by omega)]

/-- A place that it finds is below its start. -/
theorem scan_back_some {buf : Bytes} {k q : Nat} (h : scanBack buf k = some q) :
    q < k ∧ ∃ b, buf[q]? = some b ∧ isSpace b = false := by
  induction k with
  | zero => cases h
  | succ k ih =>
      unfold scanBack at h
      split at h
      · cases h
      · rename_i b hb
        split at h
        · obtain ⟨hlt, hget⟩ := ih h
          exact ⟨by omega, hget⟩
        · rename_i hspace
          obtain rfl : k = q := Option.some.inj h
          exact ⟨by omega, b, hb, Bool.eq_false_of_not_eq_true hspace⟩

/-- What follows the first loop. -/
theorem trim_in_place_eq {buf : Bytes} {b : UInt8} {p length : Nat} (hfirst : buf.head? = some b)
    (hb : b ≠ 0) (hskip : skipSpace buf 0 = some p) (hlength : strlen buf p = some length) :
    trimInPlace buf =
      (scanBack buf (p + int32 (length - 1) + 1).toNat).bind fun last =>
        if (last : Int) - p = intMax then none
        else if last + 1 < buf.length then some (p, buf.set (last + 1) 0)
        else none := by
  unfold trimInPlace
  rw [hfirst, Option.bind_eq_bind, Option.bind_some, if_neg hb, hskip, Option.bind_eq_bind,
    Option.bind_some, hlength]
  rfl

/-! ## Texts of white space -/

theorem nul_not_space : isSpace 0 = false := by decide

theorem ne_nul_of_space {b : UInt8} (h : isSpace b = true) : b ≠ 0 := by
  intro heq
  rw [heq, nul_not_space] at h
  cases h

/-- In front of a text of white space the second loop leaves the buffer. -/
theorem trim_blank {s : Bytes} (hne : s ≠ []) (hs : ∀ b ∈ s, isSpace b = true) :
    trimInPlace (s ++ [0]) = none := by
  obtain ⟨b, rest, rfl⟩ := List.exists_cons_of_ne_nil hne
  have hskip : skipSpace (b :: rest ++ [0]) 0 = some (b :: rest).length := by
    rw [skip_space_append hs nul_not_space, Nat.zero_add]
  have hlength : strlen (b :: rest ++ [0]) (b :: rest).length = some 0 := by
    simp [strlen]
  have hscan : scanBack (b :: rest ++ [0]) (b :: rest).length = none := by
    refine scan_back_none fun r hr => ?_
    rw [List.getElem?_append_left hr, List.getElem?_eq_getElem hr]
    exact ⟨_, rfl, hs _ (List.getElem_mem hr)⟩
  have hstart : ((b :: rest).length + int32 ((0 : Nat) - 1) + 1).toNat = (b :: rest).length := by
    rw [int32_eq_self (by decide) (by decide)]
    omega
  rw [trim_in_place_eq rfl (ne_nul_of_space (hs b List.mem_cons_self)) hskip hlength, hstart, hscan]
  rfl

/-! ## Other texts -/

/-- A string as white space, what is left of it when it is trimmed, and white space again. -/
structure Split (s lead core trail : Bytes) : Prop where
  eq : s = lead ++ (core ++ trail)
  body : s.dropWhile isSpace = core ++ trail
  trimmed : trimmed s = core
  lead : ∀ b ∈ lead, isSpace b = true
  trail : ∀ b ∈ trail, isSpace b = true
  first : ∃ b rest, core = b :: rest ∧ isSpace b = false
  last : ∃ b, core[core.length - 1]? = some b ∧ isSpace b = false

theorem exists_split {s : Bytes} (h : trimmed s ≠ []) :
    ∃ lead core trail, Split s lead core trail := by
  have hbody : s.dropWhile isSpace ≠ [] := by
    intro hnil
    rw [trimmed, hnil] at h
    exact h rfl
  have hsplit : trimmed s ++ (s.dropWhile isSpace).rtakeWhile isSpace = s.dropWhile isSpace :=
    List.rdropWhile_append_rtakeWhile ..
  refine ⟨s.takeWhile isSpace, trimmed s, (s.dropWhile isSpace).rtakeWhile isSpace,
    { eq := ?_
      body := hsplit.symm
      trimmed := rfl
      lead := fun b hb => List.mem_takeWhile_imp hb
      trail := fun b hb => List.mem_rtakeWhile_imp hb
      first := ?_
      last := ?_ }⟩
  · rw [hsplit, List.takeWhile_append_dropWhile]
  · obtain ⟨b, rest, hcore⟩ := List.exists_cons_of_ne_nil h
    refine ⟨b, rest, hcore, ?_⟩
    have hhead := congrArg List.head? hsplit
    rw [hcore, List.head?_eq_some_head hbody] at hhead
    rw [Option.some.inj hhead]
    exact List.head_dropWhile_not isSpace hbody
  · have hlast := List.rdropWhile_last_not isSpace (s.dropWhile isSpace) h
    refine ⟨_, ?_, by simpa using hlast⟩
    rw [← List.getLast?_eq_getElem?]
    exact List.getLast?_eq_some_getLast h

namespace Split

variable {s lead core trail : Bytes}

theorem core_ne_nil (h : Split s lead core trail) : core ≠ [] := by
  obtain ⟨b, rest, rfl, -⟩ := h.first
  exact List.cons_ne_nil b rest

/-- What the function does with such a string. -/
theorem trim_eq (h : Split s lead core trail) (hs : 0 ∉ s) :
    trimInPlace (s ++ [0]) =
      (scanBack (s ++ [0])
        (lead.length + int32 (((s.dropWhile isSpace).length : Nat) - 1) + 1).toNat).bind fun last =>
        if (last : Int) - lead.length = intMax then none
        else if last + 1 < (s ++ [0]).length then some (lead.length, (s ++ [0]).set (last + 1) 0)
        else none := by
  obtain ⟨b, rest, hcore, hb⟩ := h.first
  have hbuf : s ++ [0] = lead ++ b :: (rest ++ trail ++ [0]) := by
    rw [h.eq, hcore]
    simp
  have hskip : skipSpace (s ++ [0]) 0 = some lead.length := by
    rw [hbuf, skip_space_append h.lead hb, Nat.zero_add]
  have hbody : (s ++ [0]).drop lead.length = core ++ trail ++ [0] := by
    rw [hbuf, List.drop_left, hcore]
    simp
  have hnul : ∀ c ∈ core ++ trail, c ≠ 0 := by
    intro c hc heq
    rw [heq] at hc
    refine hs ?_
    rw [h.eq]
    exact List.mem_append_right _ hc
  have hlength : strlen (s ++ [0]) lead.length = some (s.dropWhile isSpace).length := by
    unfold strlen
    rw [hbody, if_pos (by simp), h.body]
    congr 2
    rw [List.takeWhile_append_of_pos fun c hc => by simpa using hnul c hc]
    simp
  obtain ⟨c, tail, hcons⟩ : ∃ c tail, s = c :: tail := by
    refine List.exists_cons_of_ne_nil fun hnil => ?_
    have heq := h.eq
    rw [hnil, hcore] at heq
    simp at heq
  have hc : c ≠ 0 := by
    intro heq
    rw [hcons, heq] at hs
    exact hs List.mem_cons_self
  exact trim_in_place_eq (by rw [hcons]; rfl) hc hskip hlength

/-- A place in the white space at the beginning. -/
theorem get_lead (h : Split s lead core trail) {r : Nat} (hr : r < lead.length) :
    ∃ c, (s ++ [0])[r]? = some c ∧ isSpace c = true := by
  rw [h.eq, List.append_assoc, List.getElem?_append_left hr, List.getElem?_eq_getElem hr]
  exact ⟨_, rfl, h.lead _ (List.getElem_mem hr)⟩

/-- The last place of what is left. -/
theorem get_last (h : Split s lead core trail) :
    ∃ b, (s ++ [0])[lead.length + core.length - 1]? = some b ∧ isSpace b = false := by
  obtain ⟨b, hb, hspace⟩ := h.last
  have hpos : 0 < core.length := List.length_pos_of_ne_nil h.core_ne_nil
  refine ⟨b, ?_, hspace⟩
  rw [h.eq, List.append_assoc, List.getElem?_append_right (by omega), List.append_assoc,
    List.getElem?_append_left (by omega), ← hb]
  congr 1
  omega

/-- A place in the white space at the end. -/
theorem get_trail (h : Split s lead core trail) {r : Nat} (hlow : lead.length + core.length ≤ r)
    (hhigh : r < lead.length + (core ++ trail).length) :
    ∃ c, (s ++ [0])[r]? = some c ∧ isSpace c = true := by
  rw [List.length_append] at hhigh
  rw [h.eq, List.append_assoc, List.getElem?_append_right (by omega), List.append_assoc,
    List.getElem?_append_right (by omega), List.getElem?_append_left (by omega),
    List.getElem?_eq_getElem (by omega)]
  exact ⟨_, rfl, h.trail _ (List.getElem_mem _)⟩

/-- The string that ends behind a place. -/
theorem string_set (h : Split s lead core trail) (hs : 0 ∉ s) {j : Nat}
    (hj : j < (core ++ trail).length) :
    0 ∈ ((s ++ [0]).set (lead.length + j + 1) 0).drop lead.length ∧
      ((((s ++ [0]).set (lead.length + j + 1) 0).drop lead.length).takeWhile fun b => b ≠ 0) =
        (core ++ trail).take (j + 1) := by
  have hdrop : ((s ++ [0]).set (lead.length + j + 1) 0).drop lead.length =
      (core ++ trail).take (j + 1) ++ 0 :: (core ++ trail ++ [0]).drop (j + 1 + 1) := by
    rw [h.eq, List.append_assoc, List.set_append_right _ _ (by omega), List.drop_left,
      show lead.length + j + 1 - lead.length = j + 1 by omega,
      List.set_eq_take_append_cons_drop, if_pos (by simp at hj ⊢; omega),
      List.take_append_of_le_length (by omega)]
  have hnul : ∀ c ∈ (core ++ trail).take (j + 1), c ≠ 0 := by
    intro c hc heq
    rw [heq] at hc
    refine hs ?_
    rw [h.eq]
    exact List.mem_append_right _ (List.mem_of_mem_take hc)
  rw [hdrop]
  refine ⟨by simp, ?_⟩
  rw [List.takeWhile_append_of_pos fun c hc => by simpa using hnul c hc]
  simp

/-- The string is trimmed exactly if the second loop starts behind its last character that is not
white space, and the place of that can be counted up. -/
theorem trims_iff (h : Split s lead core trail) (hs : 0 ∉ s) :
    Trims trimInPlace s ↔ (core.length : Int) ≤ intMax ∧
      (core.length : Int) - 1 ≤ int32 ((s.dropWhile isSpace).length - 1) := by
  have htrim := h.trim_eq hs
  have hpos : 0 < core.length := List.length_pos_of_ne_nil h.core_ne_nil
  have hbound : int32 ((s.dropWhile isSpace).length - 1) ≤ intMax := (int32_bounds _).2
  have hlength : (s ++ [0]).length = lead.length + (core ++ trail).length + 1 := by
    rw [h.eq]
    simp [Nat.add_assoc]
  constructor
  · rintro ⟨p, buf, hsome, -, -, hstring⟩
    rw [htrim, Option.bind_eq_some_iff] at hsome
    obtain ⟨last, hscan, hsome⟩ := hsome
    obtain ⟨hlt, b, hb, hspace⟩ := scan_back_some hscan
    split at hsome
    · cases hsome
    rename_i hindex
    split at hsome
    · rename_i hinside
      obtain ⟨rfl, rfl⟩ := Prod.mk.inj (Option.some.inj hsome)
      -- the loop does not stop in the white space at the beginning
      have hlead : lead.length ≤ last := by
        by_contra hlow
        obtain ⟨c, hc, hspace'⟩ := h.get_lead (not_le.mp hlow)
        obtain rfl : b = c := Option.some.inj (hb.symm.trans hc)
        rw [hspace] at hspace'
        cases hspace'
      obtain ⟨j, rfl⟩ := Nat.exists_eq_add_of_le hlead
      have hj : j < (core ++ trail).length := by omega
      rw [(h.string_set hs hj).2, h.trimmed] at hstring
      have hcore := congrArg List.length hstring
      rw [List.length_take, Nat.min_eq_left hj] at hcore
      omega
    · cases hsome
  · rintro ⟨hcount, hstart⟩
    obtain ⟨b, hb, hspace⟩ := h.get_last
    have hstart' : int32 ((s.dropWhile isSpace).length - 1) ≤ (core ++ trail).length - 1 := by
      rw [h.body]
      exact int32_le (by omega)
    have hscan := scan_back_found (k :=
      (lead.length + int32 (((s.dropWhile isSpace).length : Nat) - 1) + 1).toNat) (by omega) hb
      hspace fun r hr hrk => h.get_trail (by omega) (by omega)
    refine ⟨lead.length, (s ++ [0]).set (lead.length + (core.length - 1) + 1) 0, ?_, ?_, ?_⟩
    · rw [htrim, hscan, Option.bind_some, if_neg (by omega), if_pos (by omega)]
      congr 3
      omega
    · simp
    · have hlast : core.length - 1 < (core ++ trail).length := by
        rw [List.length_append]
        omega
      obtain ⟨hnul, hstring⟩ := h.string_set hs hlast
      refine ⟨hnul, ?_⟩
      rw [hstring, h.trimmed, Nat.sub_add_cancel hpos, List.take_left]

end Split

/-! ## All strings -/

theorem trim_empty : Trims trimInPlace [] :=
  ⟨0, [0], rfl, rfl, List.mem_cons_self, rfl⟩

/-- A string of white space has nothing left. -/
theorem trimmed_eq_nil_iff {s : Bytes} : trimmed s = [] ↔ ∀ b ∈ s, isSpace b = true := by
  constructor
  · intro h b hb
    rw [← List.takeWhile_append_dropWhile (p := isSpace) (l := s)] at hb
    rcases List.mem_append.mp hb with hb | hb
    · exact List.mem_takeWhile_imp hb
    · exact List.rdropWhile_eq_nil_iff.mp h b hb
  · intro h
    unfold trimmed
    rw [List.dropWhile_eq_nil_iff.mpr h]
    rfl

/-- The one function under both names, on any string. -/
theorem trims_iff_trimmable {s : Bytes} (hs : 0 ∉ s) : Trims trimInPlace s ↔ Trimmable s := by
  unfold Trimmable
  by_cases hnil : s = []
  · rw [hnil]
    exact iff_of_true trim_empty (.inl rfl)
  by_cases hblank : trimmed s = []
  · refine iff_of_false ?_ ?_
    · rintro ⟨p, buf, hsome, -⟩
      rw [trim_blank hnil (trimmed_eq_nil_iff.mp hblank)] at hsome
      cases hsome
    · rintro (h | ⟨h, -⟩)
      · exact hnil h
      · exact h hblank
  · obtain ⟨lead, core, trail, h⟩ := exists_split hblank
    rw [h.trims_iff hs, or_iff_right hnil, and_iff_right hblank, h.trimmed]

/-- The functions `char_trim` touch only the buffer of a string and return it without the white
space around it exactly if it is empty, or has a character that is not white space and is not too
long for their `int`. -/
theorem char_trim_iff {s : Bytes} (hs : 0 ∉ s) :
    (Trims parseCharTrim s ∧ Trims featuresCharTrim s) ↔ Trimmable s := by
  have h := trims_iff_trimmable hs
  exact ⟨fun htrims => h.mp htrims.1, fun htrimmable => ⟨h.mpr htrimmable, h.mpr htrimmable⟩⟩

/-- `" a "` is trimmed. -/
theorem spaced_letter_trimmed :
    Trims parseCharTrim [32, 97, 32] ∧ Trims featuresCharTrim [32, 97, 32] :=
  (char_trim_iff (by decide)).mpr (.inr (by decide))

/-- `" "` is not. -/
theorem single_space_not_trimmed :
    ¬ (Trims parseCharTrim [32] ∧ Trims featuresCharTrim [32]) := by
  rintro ⟨⟨p, buf, hsome, -⟩, -⟩
  have hnone : parseCharTrim ([32] ++ [0]) = none := by decide
  rw [hnone] at hsome
  cases hsome

/-- Below 2 GiB all that counts is a character that is not white space. -/
theorem trimmable_of_short {s : Bytes} (h : (s.length : Int) ≤ intMax) :
    Trimmable s ↔ s = [] ∨ ∃ b ∈ s, isSpace b = false := by
  have hbody : (s.dropWhile isSpace).length ≤ s.length := (List.dropWhile_suffix _).length_le
  have hcore : (trimmed s).length ≤ (s.dropWhile isSpace).length :=
    (List.rdropWhile_prefix ..).length_le
  have hlength : int32 ((s.dropWhile isSpace).length - 1) = (s.dropWhile isSpace).length - 1 :=
    int32_eq_self (by omega) (by omega)
  unfold Trimmable
  rw [hlength, ne_eq, trimmed_eq_nil_iff]
  refine or_congr_right ?_
  constructor
  · rintro ⟨hne, -⟩
    simpa using hne
  · rintro ⟨b, hb, hspace⟩
    refine ⟨fun hall => ?_, by omega, by omega⟩
    rw [hall b hb] at hspace
    cases hspace

/-! ## Texts of the parser -/

/-- The bytes of a text. -/
def utf8 (text : String) : Bytes := text.toList.flatMap String.utf8EncodeChar

/-- The bytes of a character are white space together with the character, and otherwise none of
them is. -/
structure Encodes (enc : Char → Bytes) (c : Char) : Prop where
  space : isSpaceChar c = true → ∀ b ∈ enc c, isSpace b = true
  other : isSpaceChar c = false → enc c ≠ [] ∧ ∀ b ∈ enc c, isSpace b = false

theorem is_space_high {n : Nat} (h : 128 ≤ n % 256) : isSpace (UInt8.ofNat n) = false := by
  have hvalue : (UInt8.ofNat n).toNat = n % 256 := UInt8.toNat_ofNat'
  generalize UInt8.ofNat n = b at hvalue
  have hne : b ≠ 32 := by
    rintro rfl
    have hthirty : (32 : UInt8).toNat = 32 := rfl
    omega
  have hle : ¬ b ≤ 13 := by
    rw [UInt8.le_iff_toNat_le]
    have hthirteen : (13 : UInt8).toNat = 13 := rfl
    omega
  simp [isSpace, hne, hle]

/-- White space is the same in texts and in bytes. -/
theorem utf8_encodes (c : Char) : Encodes String.utf8EncodeChar c := by
  by_cases hsmall : c.toNat < 128
  · have hall : ∀ n < 128, isSpace (UInt8.ofNat n) = isSpaceChar (Char.ofNat n) := by
      decide +kernel
    have hsame := hall c.toNat hsmall
    rw [Char.ofNat_toNat] at hsame
    have henc : String.utf8EncodeChar c = [UInt8.ofNat c.toNat] :=
      if_pos (Nat.le_of_lt_succ hsmall)
    constructor
    · intro hspace b hb
      rw [henc] at hb
      rw [List.mem_singleton.mp hb, hsame, hspace]
    · intro hspace
      rw [henc]
      refine ⟨List.cons_ne_nil _ _, fun b hb => ?_⟩
      rw [List.mem_singleton.mp hb, hsame, hspace]
  · constructor
    · intro hspace
      have hall : isSpaceChar c = true → c.toNat < 128 := by
        simp only [isSpaceChar, Bool.or_eq_true, Bool.and_eq_true, decide_eq_true_eq]
        rintro (rfl | ⟨-, hle⟩)
        · decide
        · exact lt_of_le_of_lt (Char.le_def.mp hle) (by decide)
      exact absurd (hall hspace) hsmall
    · intro _
      refine ⟨String.utf8EncodeChar_ne_nil, fun b hb => ?_⟩
      unfold String.utf8EncodeChar at hb
      dsimp only at hb
      have hlarge : ¬ c.val.toNat ≤ 0x7f := fun hle => hsmall (Nat.lt_succ_of_le hle)
      rw [if_neg hlarge] at hb
      split_ifs at hb
      all_goals
        simp only [List.mem_cons, List.not_mem_nil, or_false] at hb
      · rcases hb with rfl | rfl <;> exact is_space_high (by omega)
      · rcases hb with rfl | rfl | rfl <;> exact is_space_high (by omega)
      · rcases hb with rfl | rfl | rfl | rfl <;> exact is_space_high (by omega)

/-- White space at the beginning of a text is white space at the beginning of its bytes. -/
theorem drop_while_encoded {enc : Char → Bytes} (h : ∀ c, Encodes enc c) (text : List Char) :
    (text.flatMap enc).dropWhile isSpace = (text.dropWhile isSpaceChar).flatMap enc := by
  induction text with
  | nil => rfl
  | cons c rest ih =>
      rw [List.flatMap_cons]
      cases hspace : isSpaceChar c with
      | true =>
          rw [List.dropWhile_append_of_pos ((h c).space hspace), ih,
            List.dropWhile_cons_of_pos hspace]
      | false =>
          obtain ⟨hne, hother⟩ := (h c).other hspace
          obtain ⟨b, bs, hbytes⟩ := List.exists_cons_of_ne_nil hne
          have hb : isSpace b = false := hother b (by rw [hbytes]; exact List.mem_cons_self)
          rw [List.dropWhile_cons_of_neg (by rw [hspace]; exact Bool.false_ne_true),
            List.flatMap_cons, hbytes, List.cons_append,
            List.dropWhile_cons_of_neg (by rw [hb]; exact Bool.false_ne_true)]

/-- The trimmed bytes of a text are those of the trimmed text. -/
theorem trimmed_utf8 (text : String) : trimmed (utf8 text) = utf8 (charTrim text) := by
  have hreverse : ∀ l : List Char, (l.flatMap String.utf8EncodeChar).reverse =
      l.reverse.flatMap fun c => (String.utf8EncodeChar c).reverse := fun l => List.reverse_flatMap
  have hback : ∀ c, Encodes (fun c => (String.utf8EncodeChar c).reverse) c := by
    intro c
    have h := utf8_encodes c
    refine ⟨fun hspace b hb => h.space hspace b (List.mem_reverse.mp hb), fun hspace => ?_⟩
    obtain ⟨hne, hother⟩ := h.other hspace
    exact ⟨fun hnil => hne (List.reverse_eq_nil_iff.mp hnil),
      fun b hb => hother b (List.mem_reverse.mp hb)⟩
  have htwice : (List.reverse ∘ fun c => (String.utf8EncodeChar c).reverse) =
      String.utf8EncodeChar := funext fun c => List.reverse_reverse _
  unfold trimmed utf8 charTrim List.rdropWhile
  rw [drop_while_encoded utf8_encodes, hreverse, drop_while_encoded hback, String.toList_ofList,
    List.reverse_flatMap, htwice]

/-- What the parser gets for a text is `charTrim`. -/
theorem char_trim_text {text : String} (hnul : 0 ∉ utf8 text) (h : Trimmable (utf8 text)) :
    ∃ p buf, parseCharTrim (utf8 text ++ [0]) = some (p, buf) ∧
      ((buf.drop p).takeWhile fun b => b ≠ 0) = utf8 (charTrim text) := by
  obtain ⟨p, buf, hsome, -, -, hstring⟩ := (trims_iff_trimmable hnul).mpr h
  exact ⟨p, buf, hsome, hstring.trans (trimmed_utf8 text)⟩

end Thermald
