import Thermald.Gddv.Decoders

/-!
# Events of the kernel

The kernel announces a change of a device in a datagram of texts that end with a zero each, one of
them with the path of the device. `check_for_event` receives at most 511 bytes of it and looks for
the path of a thermal zone. `event_found_iff` says what this comes to for every datagram: the path
is found exactly if its beginning is among these bytes, wherever it stands and whatever the other
texts are.
-/

namespace Thermald

open Gddv (ascii)

/-- `max_buffer_size`. -/
abbrev maxBufferSize : Nat := 512

/-- The text of a C string. -/
def cText (bytes : Bytes) : Bytes := bytes.takeWhile fun b => b ≠ 0

/-- The beginning of the text with the path. -/
def devPath : Bytes := ascii "DEVPATH="

/-- `cthd_kobj_uevent` with its path. -/
structure KobjUevent where
  devicePath : Bytes

namespace KobjUevent

/-- `register_dev_path`. -/
def registerDevPath (path : String) : KobjUevent where
  devicePath := (cText (ascii path)).take (maxBufferSize - 1)

/-- The path that `thd_engine_start` registers. -/
def thermalZones : KobjUevent := registerDevPath "/devices/virtual/thermal/thermal_zone"

/-- The test of one text. -/
def announces (u : KobjUevent) (text : Bytes) : Bool :=
  decide (devPath.length < text.length) && devPath.isPrefixOf text &&
    u.devicePath.isPrefixOf (text.drop devPath.length)

/-- The loop of `check_for_event`, from a place in the buffer. -/
def scan (u : KobjUevent) (buffer : Bytes) (len i : Nat) : Bool :=
  if i < len then
    let text := cText (buffer.drop i)
    if u.announces text then true else u.scan buffer len (i + text.length + 1)
  else false
termination_by len - i

/-- `check_for_event`. The datagram is received up to the size of the buffer, if there is one. -/
def checkForEvent (u : KobjUevent) (datagram : Option Bytes) : Bool :=
  match datagram.map fun bytes => bytes.take (maxBufferSize - 1) with
  | none | some [] => false
  | some received => u.scan (received ++ [0]) received.length 0

/-! ## Texts -/

/-- The datagram with these texts. -/
def datagram (texts : List Bytes) : Bytes := texts.flatMap fun text => text ++ [0]

/-- One of the texts announces a device with the bytes of it that are received. -/
def Announced (u : KobjUevent) (n : Nat) (texts : List Bytes) : Prop :=
  ∃ before text after, texts = before ++ text :: after ∧
    u.announces (text.take (n - (datagram before).length)) = true

variable {u : KobjUevent}

/-- A C string ends at the first zero. -/
theorem c_text_append {text : Bytes} (h : 0 ∉ text) (rest : Bytes) :
    cText (text ++ 0 :: rest) = text := by
  unfold cText
  rw [List.takeWhile_append_of_pos fun b hb => by simpa using fun heq : b = 0 => h (heq ▸ hb)]
  simp

/-- No text announces anything with none of its bytes. -/
theorem announces_nil : u.announces [] = false := rfl

theorem announced_nil (n : Nat) : ¬ u.Announced n [] := by
  rintro ⟨before, text, after, htexts, -⟩
  simp at htexts

theorem datagram_cons (text : Bytes) (texts : List Bytes) :
    datagram (text :: texts) = text ++ 0 :: datagram texts := by
  unfold datagram
  rw [List.flatMap_cons, List.append_assoc]
  rfl

/-- The bytes that are left for the texts behind the first one. -/
theorem left_cons (n : Nat) (text : Bytes) (texts : List Bytes) :
    n - (datagram (text :: texts)).length = n - (text.length + 1) - (datagram texts).length := by
  rw [datagram_cons, List.length_append, List.length_cons]
  omega

/-- The first text announces a device, or one of the others does. -/
theorem announced_cons (n : Nat) (text : Bytes) (texts : List Bytes) :
    u.Announced n (text :: texts) ↔
      u.announces (text.take n) = true ∨ u.Announced (n - (text.length + 1)) texts := by
  constructor
  · rintro ⟨before, t, after, htexts, h⟩
    cases before with
    | nil =>
        obtain ⟨rfl, rfl⟩ := List.cons.inj htexts
        exact .inl h
    | cons t' before =>
        obtain ⟨rfl, hrest⟩ := List.cons.inj htexts
        rw [left_cons] at h
        exact .inr ⟨before, t, after, hrest, h⟩
  · rintro (h | ⟨before, t, after, rfl, h⟩)
    · exact ⟨[], text, texts, rfl, h⟩
    · rw [← left_cons] at h
      exact ⟨text :: before, t, after, rfl, h⟩

/-- Nothing is announced behind the last byte. -/
theorem not_announced_zero (texts : List Bytes) : ¬ u.Announced 0 texts := by
  rintro ⟨before, text, after, -, h⟩
  rw [Nat.zero_sub, List.take_zero, announces_nil] at h
  cases h

/-! ## The loop -/

/-- At the end of the buffer nothing is found. -/
theorem scan_end (u : KobjUevent) (buffer : Bytes) {len i : Nat} (h : len ≤ i) :
    u.scan buffer len i = false := by
  unfold scan
  rw [if_neg (Nat.not_lt.mpr h)]

/-- One turn of the loop, at a place where a text stands in the buffer. -/
theorem scan_text (u : KobjUevent) (before : Bytes) {text : Bytes} (htext : 0 ∉ text)
    (rest : Bytes) {len : Nat} (h : before.length < len) :
    u.scan (before ++ (text ++ 0 :: rest)) len before.length = true ↔
      u.announces text = true ∨
        u.scan (before ++ (text ++ 0 :: rest)) len (before.length + text.length + 1) = true := by
  conv_lhs => unfold scan
  rw [if_pos h, List.drop_left, c_text_append htext]
  dsimp only
  split
  · rename_i hannounces
    exact iff_of_true rfl (.inl hannounces)
  · rename_i hannounces
    rw [or_iff_right hannounces]

/-- The loop finds what the received bytes announce, from each text on. -/
theorem scan_texts (u : KobjUevent) {texts : List Bytes} (htexts : ∀ text ∈ texts, 0 ∉ text)
    (before : Bytes) (n : Nat) :
    u.scan (before ++ ((datagram texts).take n ++ [0]))
        (before.length + ((datagram texts).take n).length) before.length = true ↔
      u.Announced n texts := by
  induction texts generalizing before n with
  | nil =>
      rw [scan_end u _ (by simp [datagram])]
      exact iff_of_false Bool.false_ne_true (announced_nil n)
  | cons text texts ih =>
      have htext := htexts text List.mem_cons_self
      rw [announced_cons, datagram_cons]
      rcases Nat.lt_or_ge text.length n with hlong | hshort
      · -- the zero behind the text is received
        obtain ⟨m, rfl⟩ := Nat.exists_eq_add_of_lt hlong
        have htake : (text ++ 0 :: datagram texts).take (text.length + m + 1) =
            text ++ 0 :: (datagram texts).take m := by
          rw [Nat.add_assoc, List.take_length_add_append, List.take_succ_cons]
        have hleft : text.length + m + 1 - (text.length + 1) = m := by omega
        have hwhole : text.take (text.length + m + 1) = text := List.take_of_length_le (by omega)
        have hnext := ih (fun t ht => htexts t (List.mem_cons_of_mem _ ht))
          (before ++ (text ++ [0])) m
        have hlt : before.length <
            before.length + (text ++ 0 :: (datagram texts).take m).length := by
          rw [List.length_append, List.length_cons]
          omega
        rw [htake, hleft, hwhole, List.append_assoc, List.cons_append,
          scan_text u before htext _ hlt, ← hnext]
        refine or_congr_right (Eq.congr_left ?_)
        simp [Nat.add_assoc, Nat.add_comm, Nat.add_left_comm]
      · -- the text is the last one, and what is received of it ends with the zero of the buffer
        have htake : (text ++ 0 :: datagram texts).take n = text.take n :=
          List.take_append_of_le_length hshort
        have hlength : (text.take n).length = n := List.length_take_of_le hshort
        rw [htake, Nat.sub_eq_zero_of_le (hshort.trans (Nat.le_succ _)),
          or_iff_left (not_announced_zero texts)]
        rcases Nat.eq_zero_or_pos n with rfl | hpos
        · rw [scan_end u _ (by simp), List.take_zero, announces_nil]
        · rw [scan_text u before (fun hmem => htext (List.mem_of_mem_take hmem)) _ (by omega),
            scan_end u _ (by omega)]
          exact or_iff_left Bool.false_ne_true

/-! ## The datagram -/

/-- A text announces the device exactly if it begins with the variable and the path, and has a path
at all. -/
theorem announces_iff (u : KobjUevent) (text : Bytes) :
    u.announces text = true ↔ devPath ++ u.devicePath <+: text ∧ devPath.length < text.length := by
  unfold announces
  rw [Bool.and_eq_true, Bool.and_eq_true, decide_eq_true_eq, List.isPrefixOf_iff_prefix,
    List.isPrefixOf_iff_prefix]
  constructor
  · rintro ⟨⟨hlength, rest, rfl⟩, hpath⟩
    rw [List.drop_left] at hpath
    exact ⟨(List.prefix_append_right_inj _).mpr hpath, hlength⟩
  · rintro ⟨⟨rest, rfl⟩, hlength⟩
    refine ⟨⟨hlength, ?_⟩, ?_⟩
    · rw [List.append_assoc]
      exact List.prefix_append ..
    · rw [List.append_assoc, List.drop_left]
      exact List.prefix_append ..

/-- A datagram that is there is searched from its beginning. -/
theorem check_for_event_eq (u : KobjUevent) (bytes : Bytes) :
    u.checkForEvent (some bytes) =
      u.scan (bytes.take (maxBufferSize - 1) ++ [0]) (bytes.take (maxBufferSize - 1)).length 0 := by
  unfold checkForEvent
  rw [Option.map_some]
  cases bytes.take (maxBufferSize - 1) with
  | nil => exact (scan_end u _ (Nat.le_refl 0)).symm
  | cons b rest => rfl

/-- What the bytes that are received of a text announce. -/
theorem announces_take_iff (u : KobjUevent) (text : Bytes) (n : Nat) :
    u.announces (text.take n) = true ↔ devPath ++ u.devicePath <+: text ∧
      devPath.length < text.length ∧ devPath.length + max 1 u.devicePath.length ≤ n := by
  rw [announces_iff, List.prefix_take_iff, List.length_take, List.length_append, and_assoc]
  refine and_congr_right fun _ => ?_
  omega

/-- Which datagrams are events. Whatever texts a datagram has, `check_for_event` reports it
exactly if one of them begins with the path variable and the path that is registered, so early that
this beginning, and at least one byte of the path, is among the first 511 bytes. Longer datagrams
and paths that go on behind are no problem; a path that comes later is not found. -/
theorem event_found_iff (u : KobjUevent) {texts : List Bytes} (htexts : ∀ text ∈ texts, 0 ∉ text) :
    u.checkForEvent (some (datagram texts)) = true ↔
      ∃ before text after, texts = before ++ text :: after ∧ devPath ++ u.devicePath <+: text ∧
        devPath.length < text.length ∧
        (datagram before).length + devPath.length + max 1 u.devicePath.length ≤ 511 := by
  have hscan := scan_texts u htexts [] (maxBufferSize - 1)
  rw [List.nil_append, List.length_nil, Nat.zero_add] at hscan
  rw [check_for_event_eq, hscan]
  unfold Announced
  refine exists₃_congr fun before text after => and_congr_right fun _ => ?_
  rw [announces_take_iff]
  refine and_congr_right fun _ => and_congr_right fun _ => ?_
  show _ ≤ 511 - _ ↔ _
  have hpos : 0 < max 1 u.devicePath.length := Nat.lt_of_lt_of_le Nat.one_pos (le_max_left ..)
  omega

/-- An announcement of the kernel. -/
def zoneEvent : List Bytes :=
  [ascii "change@/devices/virtual/thermal/thermal_zone3", ascii "ACTION=change",
    ascii "DEVPATH=/devices/virtual/thermal/thermal_zone3", ascii "SUBSYSTEM=thermal"]

/-- It is found with the path that the engine registers. -/
theorem zone_event_found : thermalZones.checkForEvent (some (datagram zoneEvent)) = true := by
  refine (event_found_iff thermalZones ?_).mpr ⟨zoneEvent.take 2, _, _, rfl, ?_, ?_, ?_⟩
  · decide +kernel
  · decide +kernel
  · decide +kernel
  · decide +kernel

end KobjUevent

end Thermald
