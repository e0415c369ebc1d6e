import Thermald.Gddv.FlatVault
import Thermald.Gddv.Frames

/-!
# Power limits of a vault

The power limits of the platform come from the `ppcc` value of the participant `TCPU.D0`. The
decoder reads the first limit from a value of at least 84 bytes and the second one from a value of
at least 156 bytes, but it returns between the two without having stored what it has read. So the
first value of at least 156 bytes is what `get_ppcc_param` finds, with its fields narrowed to `int`.

`ppcc_param_iff` says when this is what the first value of at least 84 bytes asks for.
-/

namespace Thermald.Gddv

/-! ## Records -/

/-- The participant of the platform's power limits. -/
def tcpuD0 : Bytes := ascii "TCPU.D0"

/-- `get_ppcc_param`. -/
def getPpccParam (g : Gddv) (name : Bytes) : Option Ppcc :=
  if name ≠ tcpuD0 then none else g.ppccs.find? fun ppcc => ppcc.name = name

/-- The 64-bit number at an offset of a value. -/
def uint64At (val : Bytes) (i : Nat) : Nat :=
  littleEndian (slice val i 8)

/-- The record that is stored for a value with both limits. -/
def ppccOf (name val : Bytes) : Ppcc where
  name
  valid := 1
  powerLimitMin := int32 (uint64At val 28)
  powerLimitMax := int32 (uint64At val 40)
  timeWindMin := int32 (uint64At val 52)
  timeWindMax := int32 (uint64At val 64)
  stepSize := int32 (uint64At val 76)
  limit1Valid :=
    if int32 (uint64At val 112) ≠ 0 ∧ int32 (uint64At val 100) ≠ 0 ∧
      int32 (uint64At val 124) ≠ 0 ∧ int32 (uint64At val 136) ≠ 0 ∧
      int32 (uint64At val 148) ≠ 0 then 1 else 0
  powerLimit1Min := int32 (uint64At val 100)
  powerLimit1Max := int32 (uint64At val 112)
  timeWind1Min := int32 (uint64At val 124)
  timeWind1Max := int32 (uint64At val 136)
  step1Size := int32 (uint64At val 148)

/-- A field in the value is read from the terminated copy. -/
theorem ppcc_field_eq {val : Bytes} {i : Nat} (h : i + 8 ≤ val.length) :
    ppccField (val ++ [0]) i = pure (int32 (uint64At val i)) := by
  have hin : InBounds (val ++ [0]) i 8 := by
    refine ⟨Int.natCast_nonneg _, ?_⟩
    rw [List.length_append]
    omega
  have hslice : slice (val ++ [0]) i 8 = slice val i 8 := by
    unfold slice
    rw [Int.toNat_natCast, List.drop_append_of_le_length (by omega),
      List.take_append_of_le_length (by rw [List.length_drop]; omega)]
  unfold ppccField readUint64
  rw [hin.read_bytes, hslice]
  rfl

/-- What a value adds to the records. -/
def ppccsOf (name val : Bytes) : List Ppcc :=
  if 156 ≤ val.length then [ppccOf name val] else []

/-- The decoder stores a record exactly if the value has both limits. -/
theorem parse_ppcc_adds {name val : Bytes} {c c' : Cursor} {r : Int}
    (h : Returns (parsePpcc name (val ++ [0]) val.length) c r c') :
    c'.gddv.ppccs = c.gddv.ppccs ++ ppccsOf name val := by
  unfold parsePpcc at h
  unfold ppccsOf
  have hfield : ∀ i : Nat, i + 8 ≤ val.length →
      ppccField (val ++ [0]) i = pure (int32 (uint64At val i)) := fun _ hi => ppcc_field_eq hi
  split at h
  · rw [if_neg (by omega), List.append_nil, h.of_pure.2]
  rw [show (28 : Int) = (28 : Nat) from rfl, show (40 : Int) = (40 : Nat) from rfl,
    show (52 : Int) = (52 : Nat) from rfl, show (64 : Int) = (64 : Nat) from rfl,
    hfield 28 (by omega), hfield 40 (by omega), hfield 52 (by omega), hfield 64 (by omega),
    show ppccField (val ++ [0]) 76 = _ from hfield 76 (by omega)] at h
  simp only [pure_bind] at h
  split at h
  · rw [if_neg (by omega), List.append_nil, h.of_pure.2]
  rw [show ppccField (val ++ [0]) (76 + 12 + 12) = _ from hfield 100 (by omega),
    show ppccField (val ++ [0]) (76 + 12 + 24) = _ from hfield 112 (by omega),
    show ppccField (val ++ [0]) (76 + 12 + 36) = _ from hfield 124 (by omega),
    show ppccField (val ++ [0]) (76 + 12 + 48) = _ from hfield 136 (by omega),
    show ppccField (val ++ [0]) (76 + 12 + 60) = _ from hfield 148 (by omega)] at h
  simp only [pure_bind] at h
  obtain ⟨_, c₁, hupdate, hpure⟩ := h.of_bind
  cases hupdate
  have hlong : 156 ≤ val.length := by omega
  rw [hpure.of_pure.2, if_pos hlong]
  rfl

/-! ## The other decoders -/

section Keeps

variable {fuel : Nat} {val : Bytes} {len : Int}

/-- The records of the power limits are kept. -/
abbrev KeepsPpccs {α : Type} (m : Decoder α) : Prop := Keeps Gddv.ppccs m

theorem keeps_begin (len : Int) : KeepsPpccs (begin len) := .begin fun _ => rfl

theorem keeps_psvt (name : Option Bytes) : KeepsPpccs (parsePsvt fuel name val len) := by
  unfold parsePsvt
  refine .bind (keeps_begin len) fun _ => .bind (keeps_get_uint64 _) fun _ => .ite (.throw _) ?_
  refine .bind (.while_below (keeps_psv val) ..) fun _ => ?_
  exact .bind (.update fun _ => rfl) fun _ => .pure _

theorem keeps_appc : KeepsPpccs (parseAppc fuel val len) := by
  unfold parseAppc
  refine .bind (keeps_begin len) fun _ => .ite (.pure _) ?_
  refine .bind (keeps_read_bytes ..).map fun _ => .ite (.pure _) ?_
  refine .bind (keeps_get_uint64 _) fun _ => .ite (.pure _) ?_
  refine .bind (.while_below (fun _ => ?_) ..) fun _ => .pure _
  refine .bind (keeps_get_uint64 _) fun _ => .bind (keeps_get_std_string _) fun _ => ?_
  refine .bind (keeps_get_std_string _) fun _ => .bind (keeps_get_uint64 _) fun _ => ?_
  exact .bind (keeps_get_uint64 _) fun _ => .update fun _ => rfl

theorem keeps_apct : KeepsPpccs (parseApct fuel val len) := by
  have hset : ∀ {count : Int} {body : SetState → Decoder SetState},
      (∀ v, KeepsPpccs (body v)) → KeepsPpccs (parseConditionSet fuel count body) := by
    intro count body hbody
    exact .bind (.loop hbody fuel _) fun _ => .update fun _ => rfl
  unfold parseApct
  refine .bind (keeps_begin len) fun _ => .bind (keeps_get_uint64 _) fun _ => .ite ?_ (.ite ?_ ?_)
  · refine .bind (.while_below (fun _ => ?_) ..) fun _ => .pure _
    exact .bind (keeps_get_uint64 _) fun _ => .ite (.throw _) (hset (keeps_condition1 val len _))
  · refine .bind (.while_below (fun _ => ?_) ..) fun _ => .pure _
    refine .bind (keeps_get_uint64 _) fun _ => .ite (.throw _) ?_
    exact .bind (keeps_get_uint64 _) fun _ => hset (keeps_condition2 val len _ _)
  · exact .throw _

theorem keeps_apat : KeepsPpccs (parseApat fuel val len) := by
  unfold parseApat
  refine .bind (keeps_begin len) fun _ => .bind (keeps_get_uint64 _) fun _ => .ite (.throw _) ?_
  refine .bind (.while_below (fun _ => ?_) ..) fun _ => .pure _
  refine .bind (keeps_get_uint64 _) fun _ => .bind (keeps_get_std_string _) fun _ => ?_
  refine .bind (keeps_get_std_string _) fun _ => .bind (keeps_get_uint64 _) fun _ => ?_
  refine .bind (keeps_get_std_string _) fun _ => .bind (keeps_get_std_string _) fun _ => ?_
  exact .update fun _ => rfl

theorem keeps_itmt3 (name : Option Bytes) : KeepsPpccs (parseItmt3 fuel name val len) := by
  unfold parseItmt3
  refine .bind (keeps_begin len) fun _ => .ite (.pure _) (.set_offset fun _ => .ite (.pure _) ?_)
  refine .bind (.loop (keeps_itmt3_entries val len) ..) fun entries => ?_
  cases entries with
  | none => exact .pure _
  | some entries => exact .bind (.update fun _ => rfl) fun _ => .pure _

theorem keeps_itmt (name : Option Bytes) : KeepsPpccs (parseItmt fuel name val len) := by
  unfold parseItmt
  refine .bind (keeps_begin len) fun _ => .bind (keeps_get_uint64 _) fun _ => .ite (.pure _) ?_
  refine .bind (.while_below (keeps_itmt_entry val _) ..) fun _ => ?_
  exact .bind (.update fun _ => rfl) fun _ => .pure _

theorem keeps_idsp : KeepsPpccs (parseIdsp fuel val len) := by
  unfold parseIdsp
  refine .ite (.pure _) (.bind (.loop (fun i => ?_) ..) fun _ => .pure _)
  unfold parseIdspEntry
  cases i with
  | none => exact .pure _
  | some i =>
      refine .ite (.pure _) (.bind (keeps_read_bytes ..).map fun _ => .ite (.pure _) ?_)
      refine .bind (keeps_read_bytes ..).map fun _ => .ite (.pure _) ?_
      exact .bind (keeps_read_bytes ..) fun _ => .bind (.update fun _ => rfl) fun _ => .pure _

theorem keeps_trip_point (name type : Bytes) : KeepsPpccs (parseTripPoint name type val len) := by
  unfold parseTripPoint
  refine .ite (.pure _) (.bind (keeps_read_bytes ..).map fun _ => ?_)
  exact .bind (.update fun _ => rfl) fun _ => .pure _

theorem keeps_trt : KeepsPpccs (parseTrt fuel val len) := by
  unfold parseTrt
  refine .bind (keeps_begin len) fun _ => .bind (.while_below (fun _ => ?_) ..) fun _ => .pure _
  refine .bind (keeps_get_std_string _) fun _ => .bind (keeps_get_std_string _) fun _ => ?_
  refine .bind (keeps_get_uint64 _) fun _ => .bind (keeps_get_uint64 _) fun _ => ?_
  refine .bind (keeps_get_uint64 _) fun _ => .bind (keeps_get_uint64 _) fun _ => ?_
  exact .bind (keeps_get_uint64 _) fun _ => .bind (keeps_get_uint64 _) fun _ => .pure _

theorem keeps_vsct (name : Option Bytes) : KeepsPpccs (parseVsct fuel name val len) := by
  unfold parseVsct
  refine .bind (.update fun _ => rfl) fun _ => .bind (keeps_begin len) fun _ => ?_
  refine .bind (keeps_get_uint64 _) fun _ => .ite (.pure _) ?_
  refine .bind (.while_below (fun _ => ?_) ..) fun _ => .pure _
  refine .bind (keeps_get_std_string _) fun _ => .bind (keeps_get_uint64 _) fun _ => ?_
  refine .bind (keeps_get_uint64 _) fun _ => .bind (keeps_get_uint64 _) fun _ => ?_
  refine .bind (keeps_get_uint64 _) fun _ => .bind (keeps_get_uint64 _) fun _ => ?_
  exact .bind (keeps_get_uint64 _) fun _ => .update fun _ => rfl

theorem keeps_vspt : KeepsPpccs (parseVspt fuel val len) := by
  unfold parseVspt
  refine .bind (keeps_begin len) fun _ => .bind (keeps_get_uint64 _) fun _ => .ite (.pure _) ?_
  refine .bind (.while_below (fun _ => ?_) ..) fun _ => .pure _
  refine .bind (keeps_get_uint64 _) fun _ => .bind (keeps_get_uint64 _) fun _ => ?_
  exact .update fun _ => rfl

end Keeps

/-! ## A value -/

/-- The participant whose power limits a key names. -/
def ppccParticipant (key : Bytes) : Option Bytes :=
  match tokens (key.takeWhile fun b => b ≠ 0) with
  | [] => none
  | str :: rest =>
    let p := keyPath str rest
    p.type.bind fun type => if thdStrcmpN type (ascii "ppcc") then p.name else none

/-- What the value of a key adds to the records. -/
def ppccsOfKey (key val : Bytes) : List Ppcc :=
  match ppccParticipant key with
  | none => []
  | some name => ppccsOf name val

/-- A list of decoders, run one after the other. -/
theorem returns_of_run_decoders {m : Decoder Int} {ms : List (Decoder Int)} {v v' : Vault}
    {u : Unit}
    (h : Returns (runDecoders (m :: ms)) v u v') :
    ∃ r c, Returns m ⟨0, v.gddv⟩ r c ∧ Returns (runDecoders ms) { v with gddv := c.gddv } u v' := by
  obtain ⟨r, v₁, hdecode, hrest⟩ := Returns.of_bind h
  unfold Returns decode at hdecode
  cases hm : m ⟨0, v.gddv⟩ with
  | ok a c =>
      rw [hm] at hdecode
      cases hdecode
      exact ⟨r, c, hm, hrest⟩
  | error e c =>
      rw [hm] at hdecode
      cases hdecode

/-- Decoders that keep the records. -/
theorem run_decoders_keep {ms : List (Decoder Int)} (hms : ∀ m ∈ ms, KeepsPpccs m) {v v' : Vault}
    {u : Unit} (h : Returns (runDecoders ms) v u v') :
    v'.gddv.ppccs = v.gddv.ppccs ∧ v'.trace = v.trace := by
  induction ms generalizing v with
  | nil =>
      obtain ⟨-, rfl⟩ := Returns.of_pure h
      exact ⟨rfl, rfl⟩
  | cons m ms ih =>
      obtain ⟨hm, hrest⟩ := List.forall_mem_cons.mp hms
      obtain ⟨r, c, hdecode, h⟩ := returns_of_run_decoders h
      obtain ⟨hppccs, htrace⟩ := ih hrest h
      exact ⟨hppccs.trans (hm.eq hdecode), htrace⟩

/-- The first decoder of a path is `parse_ppcc`, if the path names power limits; the others keep the
records. -/
theorem decoders_eq (fuel : Nat) {p : KeyPath} {type : Bytes} (htype : p.type = some type)
    (val : Bytes) (len : Int) :
    ∃ others, decoders fuel p val len =
        (if thdStrcmpN type (ascii "ppcc") then
          p.name.toList.map fun name => parsePpcc name val len else []) ++ others ∧
      ∀ m ∈ others, KeepsPpccs m := by
  unfold decoders
  rw [htype]
  dsimp only
  simp only [List.append_assoc]
  refine ⟨_, rfl, fun m hm => ?_⟩
  simp only [List.mem_append, List.mem_ite_nil_right, List.mem_singleton, List.mem_map,
    List.mem_flatMap] at hm
  rcases hm with ⟨-, rfl⟩ | ⟨-, rfl⟩ | ⟨-, rfl⟩ | ⟨-, rfl⟩ | ⟨-, rfl⟩ | ⟨-, rfl⟩ |
    ⟨-, name, -, rfl⟩ | ⟨-, name, -, point, -, rfl⟩ | ⟨-, rfl⟩ | ⟨-, rfl⟩ | ⟨-, rfl⟩
  · exact keeps_psvt _
  · exact keeps_appc
  · exact keeps_apct
  · exact keeps_apat
  · exact keeps_itmt3 _
  · exact keeps_itmt _
  · exact keeps_idsp
  · exact keeps_trip_point name point
  · exact keeps_trt
  · exact keeps_vsct _
  · exact keeps_vspt

/-- The decoders that a key names add what its value says. -/
theorem dispatch_adds {fuel : Nat} {key val : Bytes} {v v' : Vault} {u : Unit}
    (h : Returns (dispatch fuel key val) v u v') :
    v'.gddv.ppccs = v.gddv.ppccs ++ ppccsOfKey key val ∧ v'.trace = v.trace := by
  unfold dispatch at h
  unfold ppccsOfKey ppccParticipant
  cases htokens : tokens (key.takeWhile fun b => b ≠ 0) with
  | nil =>
      rw [htokens] at h
      obtain ⟨-, rfl⟩ := h.of_pure
      exact ⟨(List.append_nil _).symm, rfl⟩
  | cons str rest =>
      rw [htokens] at h
      dsimp only at h ⊢
      generalize keyPath str rest = p at h ⊢
      cases htype : p.type with
      | none =>
          unfold decoders at h
          rw [htype] at h
          obtain ⟨-, rfl⟩ := Returns.of_pure h
          exact ⟨(List.append_nil _).symm, rfl⟩
      | some type =>
          obtain ⟨others, hdecoders, hothers⟩ := decoders_eq fuel htype (val ++ [0]) val.length
          rw [hdecoders] at h
          dsimp only [Option.bind_some]
          by_cases hppcc : thdStrcmpN type (ascii "ppcc")
          · rw [if_pos hppcc] at h ⊢
            cases hname : p.name with
            | none =>
                rw [hname] at h
                obtain ⟨hppccs, htrace⟩ := run_decoders_keep hothers h
                exact ⟨hppccs.trans (List.append_nil _).symm, htrace⟩
            | some name =>
                rw [hname] at h
                obtain ⟨r, c, hparse, h⟩ := returns_of_run_decoders h
                obtain ⟨hppccs, htrace⟩ := run_decoders_keep hothers h
                exact ⟨hppccs.trans (parse_ppcc_adds hparse), htrace⟩
          · rw [if_neg hppcc] at h ⊢
            obtain ⟨hppccs, htrace⟩ := run_decoders_keep hothers h
            exact ⟨hppccs.trans (List.append_nil _).symm, htrace⟩

/-! ## A vault -/

/-- What an event adds to the records. -/
def Event.ppccs : Event → List Ppcc
  | .dispatch _ name value => ppccsOfKey name value
  | _ => []

/-- The records are those of the values that went to the decoders. -/
def Recorded (v : Vault) : Prop :=
  v.gddv.ppccs = v.trace.flatMap Event.ppccs

/-- The computation leaves the records as those of the values. -/
structure Tracks {α : Type} (m : Parser α) : Prop where
  recorded : ∀ {v a v'}, Returns m v a v' → Recorded v → Recorded v'

namespace Tracks

variable {α β : Type}

protected theorem pure (a : α) : Tracks (pure a : Parser α) := by
  refine ⟨fun {v b v'} h hv => ?_⟩
  rw [h.of_pure.2]
  exact hv

protected theorem throw (e : Stop) : Tracks (throw e : Parser α) :=
  ⟨fun h => h.of_throw.elim⟩

protected theorem bind {m : Parser α} {f : α → Parser β} (h : Tracks m) (hf : ∀ a, Tracks (f a)) :
    Tracks (m >>= f) := by
  refine ⟨fun {v b v''} hret hv => ?_⟩
  obtain ⟨a, v', hm, hfa⟩ := hret.of_bind
  exact (hf a).recorded hfa (h.recorded hm hv)

protected theorem ite {c : Prop} {_ : Decidable c} {m m' : Parser α} (h : Tracks m)
    (h' : Tracks m') : Tracks (if c then m else m') := by
  split
  · exact h
  · exact h'

protected theorem map {m : Parser α} {f : α → β} (h : Tracks m) : Tracks (f <$> m) := by
  rw [map_eq_pure_bind]
  exact h.bind fun a => .pure (f a)

protected theorem loop {cond : β → Vault → Bool} {body : β → Parser β}
    (hbody : ∀ b, Tracks (body b)) (fuel : Nat) (b : β) :
    Tracks (loopM .outOfFuel cond body fuel b) := by
  refine ⟨fun {v b' v'} h hv => ?_⟩
  have hinv := Returns.loop_invariant (I := fun _ => Recorded)
    (fun b s b' s' hs _ hstep => (hbody b).recorded hstep hs) hv h
  exact hinv.1

/-- An event other than a value. -/
protected theorem log {e : Event} (he : e.ppccs = []) : Tracks (log e) := by
  refine ⟨fun {v a v'} h hv => ?_⟩
  cases h
  unfold Recorded at hv ⊢
  rw [List.flatMap_append, List.flatMap_singleton, he, List.append_nil]
  exact hv

protected theorem read_bytes (buf : Bytes) (i : Int) (n : Nat) :
    Tracks (readBytes buf i n : Parser Bytes) := by
  unfold readBytes
  exact .ite (.pure _) (.ite (.pure _) (.throw _))

protected theorem fetch (buf : Bytes) (base size i : Int) (n : Nat) :
    Tracks (fetch buf base size i n) :=
  .bind (.log rfl) fun _ => .read_bytes ..

protected theorem fetch_uint (buf : Bytes) (base size i : Int) (n : Nat) :
    Tracks (fetchUint buf base size i n) :=
  .map (.fetch ..)

protected theorem allocate (env : Env) (n : Nat) : Tracks (allocate env n) :=
  .ite (.pure _) (.throw _)

protected theorem store (buf : Bytes) (i : Int) (bs : Bytes) : Tracks (store buf i bs) := by
  refine .bind (.log rfl) fun _ => ?_
  unfold writeBytes
  exact .ite (.pure _) (.ite (.pure _) (.throw _))

/-- A value and its event. -/
protected theorem recorded_dispatch (fuel : Nat) (key val : Bytes) :
    Tracks (recordedDispatch fuel key val) := by
  refine ⟨fun {v a v'} h hv => ?_⟩
  obtain ⟨_, _, hget, h⟩ := Returns.of_bind h
  cases hget
  obtain ⟨_, v₁, hlog, h⟩ := h.of_bind
  cases hlog
  obtain ⟨hppccs, htrace⟩ := dispatch_adds h
  unfold Recorded at hv ⊢
  rw [hppccs, htrace, List.flatMap_append, List.flatMap_singleton, ← hv]
  rfl

end Tracks

section Vault

variable (env : Env) (fuel : Nat)

theorem tracks_parse_gddv_key (buf : Bytes) (base size : Int) :
    Tracks (parseGddvKey env fuel buf base size) := by
  have hvalue : ∀ key offset, Tracks (parseGddvValue env fuel buf base size key offset) := by
    intro key offset
    unfold parseGddvValue
    refine .ite (.throw _) (.bind (.log rfl) fun _ => .bind (.fetch_uint ..) fun _ => ?_)
    refine .bind (.fetch_uint ..) fun _ => .ite (.throw _) (.bind (.log rfl) fun _ => ?_)
    refine .bind (.allocate ..) fun _ => .bind (.fetch ..) fun _ => ?_
    exact .bind (.recorded_dispatch ..) fun _ => .pure _
  unfold parseGddvKey
  refine .bind (.log rfl) fun _ => .ite (.throw _) (.bind (.fetch_uint ..) fun _ => ?_)
  refine .bind (.fetch_uint ..) fun _ => .ite (.throw _) (.bind (.log rfl) fun _ => ?_)
  exact .bind (.allocate ..) fun _ => .bind (.fetch ..) fun _ => hvalue ..

theorem tracks_parse_items {nested : Bytes → Int → Parser (Int × Int)}
    (hnested : ∀ buf size, Tracks (nested buf size)) (major headersize : Nat) (buf : Bytes)
    (size : Int) : Tracks (parseItems env fuel nested major headersize buf size) := by
  have hitem : ∀ w, Tracks (parseItem env fuel nested major buf size w) := by
    intro w
    unfold parseItem
    refine .bind (.log rfl) fun _ => .ite ?_ ?_
    · refine .bind (.fetch_uint ..) fun _ => .ite ?_ (.ite ?_ (.pure _))
      · exact .bind (tracks_parse_gddv_key ..) fun _ => .pure _
      · exact .bind (hnested ..) fun _ => .pure _
    · exact .bind (tracks_parse_gddv_key ..) fun _ => .pure _
  unfold parseItems
  refine .bind (.loop hitem ..) fun w => ?_
  cases w.ret with
  | none => exact .pure _
  | some res => exact .pure _

theorem tracks_decompress_gddv (buf : Bytes) (size : Int) :
    Tracks (decompressGddv env buf size) := by
  unfold decompressGddv
  refine .ite (.pure _) (.bind (.map (.read_bytes ..)) fun _ => .ite (.pure _) ?_)
  split
  · exact .pure _
  · unfold inflate
    refine .bind (.log rfl) fun _ => .bind (.allocate ..) fun _ => .bind (.store ..) fun _ => ?_
    refine .ite (.pure _) (.bind (.read_bytes ..) fun _ => .bind (.store ..) fun _ => ?_)
    refine .bind (.map (.read_bytes ..)) fun _ => .bind (.store ..) fun _ => ?_
    exact .bind (.store ..) fun _ => .bind (.log rfl) fun _ => .pure _

/-- After a parse the records are those of the values that went to the decoders. -/
theorem tracks_parse_gddv (isNested : Bool) (buf : Bytes) (size : Int) :
    Tracks (parseGddv env fuel isNested buf size) := by
  induction fuel generalizing isNested buf size with
  | zero => exact .throw _
  | succ fuel ih =>
      unfold parseGddv
      refine .bind (.log rfl) fun _ => .ite (.pure _) (.bind (.map (.read_bytes ..)) fun _ => ?_)
      refine .ite (.throw _) (.bind (.map (.read_bytes ..)) fun _ => .ite (.pure _) ?_)
      refine .bind (.map (.read_bytes ..)) fun _ => .bind (.map (.read_bytes ..)) fun _ => ?_
      refine .ite (.bind (tracks_decompress_gddv ..) fun result => ?_) ?_
      · cases result with
        | none => exact .pure _
        | some _ => exact .bind (ih ..) fun _ => .pure _
      · exact tracks_parse_items env fuel (fun buf size => ih true buf size) ..

end Vault

/-! ## The lookup -/

/-- The value that an event hands to the decoders as power limits of a participant. -/
def Event.ppccValue (name : Bytes) : Event → List Bytes
  | .dispatch _ k value => if ppccParticipant k = some name then [value] else []
  | _ => []

/-- The `ppcc` values of a participant, in the order of the vault. -/
def ppccValues (name : Bytes) (trace : List Event) : List Bytes :=
  trace.flatMap (Event.ppccValue name)

/-- The first record of a participant is that of its first value with both limits. -/
theorem find_record (name : Bytes) (trace : List Event) :
    (trace.flatMap Event.ppccs).find? (fun ppcc => ppcc.name = name) =
      ((ppccValues name trace).find? fun val => 156 ≤ val.length).map (ppccOf name) := by
  induction trace with
  | nil => rfl
  | cons e trace ih =>
      have hevent : e.ppccs.find? (fun ppcc => ppcc.name = name) =
          ((e.ppccValue name).find? fun val => 156 ≤ val.length).map (ppccOf name) := by
        cases e with
        | dispatch tables key val =>
            show (ppccsOfKey key val).find? (fun ppcc => ppcc.name = name) =
              ((if ppccParticipant key = some name then [val] else []).find? fun val =>
                156 ≤ val.length).map (ppccOf name)
            unfold ppccsOfKey
            cases ppccParticipant key with
            | none => rfl
            | some name' =>
                have hrecord : (ppccOf name' val).name = name' := rfl
                dsimp only
                unfold ppccsOf
                by_cases hlong : 156 ≤ val.length
                · by_cases hname : name' = name
                  · subst hname
                    simp [hlong, hrecord]
                  · simp [hlong, hname, hrecord]
                · by_cases hname : name' = name
                  · simp [hlong, hname]
                  · simp [hlong, hname]
        | _ => rfl
      have hvalues : ppccValues name (e :: trace) = e.ppccValue name ++ ppccValues name trace := rfl
      rw [List.flatMap_cons, List.find?_append, ih, hevent, hvalues, List.find?_append]
      cases (e.ppccValue name).find? fun val => 156 ≤ val.length <;> rfl

/-- The offsets of the first limit in a value. -/
def firstLimit : List Nat := [28, 40, 52, 64, 76]

/-- The offsets of the second limit in a value. -/
def secondLimit : List Nat := [100, 112, 124, 136, 148]

/-- The record is valid, has the fields of the first limit of the value, and says that the second
limit is valid exactly if the value has one and none of its fields is zero. -/
structure Reflects (ppcc : Ppcc) (val : Bytes) : Prop where
  valid : ppcc.valid = 1
  powerLimitMin : ppcc.powerLimitMin = uint64At val 28
  powerLimitMax : ppcc.powerLimitMax = uint64At val 40
  timeWindMin : ppcc.timeWindMin = uint64At val 52
  timeWindMax : ppcc.timeWindMax = uint64At val 64
  stepSize : ppcc.stepSize = uint64At val 76
  limit1Valid : ppcc.limit1Valid = 1 ↔ 156 ≤ val.length ∧ ∀ i ∈ secondLimit, uint64At val i ≠ 0

/-- The value `kept`, its fields narrowed to `int`, has the first limit of `val`; and it has a
second limit without a zero exactly if `val` has one. -/
structure Narrows (kept val : Bytes) : Prop where
  first : ∀ i ∈ firstLimit, int32 (uint64At kept i) = uint64At val i
  second : (∀ i ∈ secondLimit, int32 (uint64At kept i) ≠ 0) ↔
    156 ≤ val.length ∧ ∀ i ∈ secondLimit, uint64At val i ≠ 0

/-- The record of a value reflects another value. -/
theorem reflects_iff (name kept val : Bytes) :
    Reflects (ppccOf name kept) val ↔ Narrows kept val := by
  have hflag : (ppccOf name kept).limit1Valid = 1 ↔
      ∀ i ∈ secondLimit, int32 (uint64At kept i) ≠ 0 := by
    unfold ppccOf secondLimit
    simp only [List.forall_mem_cons, List.not_mem_nil, IsEmpty.forall_iff, implies_true, and_true]
    constructor
    · intro h
      split at h
      · rename_i hnonzero
        obtain ⟨h₁, h₂, h₃, h₄, h₅⟩ := hnonzero
        exact ⟨h₂, h₁, h₃, h₄, h₅⟩
      · exact absurd h (by omega)
    · rintro ⟨h₁, h₂, h₃, h₄, h₅⟩
      exact if_pos ⟨h₂, h₁, h₃, h₄, h₅⟩
  constructor
  · intro h
    refine ⟨?_, hflag.symm.trans h.limit1Valid⟩
    unfold firstLimit
    simp only [List.forall_mem_cons, List.not_mem_nil, IsEmpty.forall_iff, implies_true, and_true]
    exact ⟨h.powerLimitMin, h.powerLimitMax, h.timeWindMin, h.timeWindMax, h.stepSize⟩
  · intro h
    have hfirst := h.first
    unfold firstLimit at hfirst
    simp only [List.forall_mem_cons, List.not_mem_nil, IsEmpty.forall_iff, implies_true,
      and_true] at hfirst
    obtain ⟨h₁, h₂, h₃, h₄, h₅⟩ := hfirst
    exact ⟨rfl, h₁, h₂, h₃, h₄, h₅, hflag.trans h.second⟩

/-- After a parse, `get_ppcc_param` finds the record of the first value with both limits. -/
theorem get_ppcc_param_eq {env : Env} {fuel : Nat} {buf : Bytes} {size : Int} {r : Int × Int}
    {v : Vault} (h : Returns (parseGddv env fuel false buf size) Vault.start r v) :
    getPpccParam v.gddv tcpuD0 =
      ((ppccValues tcpuD0 v.trace).find? fun val => 156 ≤ val.length).map (ppccOf tcpuD0) := by
  have hrecorded : Recorded v := (tracks_parse_gddv env fuel false buf size).recorded h rfl
  unfold getPpccParam
  rw [if_neg (not_not.mpr rfl), hrecorded]
  exact find_record tcpuD0 v.trace

/-- A value with both limits whose fields fit into an `int` survives the narrowing. -/
theorem narrows_self {val : Bytes} (hlong : 156 ≤ val.length)
    (hfits : ∀ i ∈ firstLimit ++ secondLimit, (uint64At val i : Int) ≤ intMax) :
    Narrows val val := by
  have hint : ∀ i ∈ firstLimit ++ secondLimit, int32 (uint64At val i) = uint64At val i :=
    fun i hi => int32_eq_self (by omega) (hfits i hi)
  refine ⟨fun i hi => hint i (List.mem_append_left _ hi), ?_⟩
  have hsecond : (∀ i ∈ secondLimit, int32 (uint64At val i) ≠ 0) ↔
      ∀ i ∈ secondLimit, uint64At val i ≠ 0 := by
    refine forall₂_congr fun i hi => ?_
    rw [hint i (List.mem_append_right _ hi)]
    exact not_congr Int.natCast_eq_zero
  rw [hsecond]
  exact ⟨fun h => ⟨hlong, h⟩, fun h => h.2⟩

/-- If the first value of at least 84 bytes has 156, it is the first one that has. -/
theorem find_long_of_first {vals : List Bytes} {val : Bytes}
    (hfirst : vals.find? (fun val => 84 ≤ val.length) = some val) (hlong : 156 ≤ val.length) :
    vals.find? (fun val => 156 ≤ val.length) = some val := by
  obtain ⟨-, before, behind, rfl, hbefore⟩ := List.find?_eq_some_iff_append.mp hfirst
  refine List.find?_eq_some_iff_append.mpr ⟨decide_eq_true hlong, before, behind, rfl, ?_⟩
  intro val' hmem
  have hshort := hbefore val' hmem
  simp only [Bool.not_eq_eq_eq_not, Bool.not_true, decide_eq_false_iff_not] at hshort ⊢
  omega

/-- The key of the platform's power limits with a value of some bytes. -/
def ppccItem (val : Bytes) : Item where
  flags := 0
  key := ascii "/participants/TCPU.D0/ppcc" ++ [0]
  type := 7
  val := val

/-- A vault with this key. -/
def ppccVault (val : Bytes) : Bytes :=
  (layoutTwo 148).vault (sampleHeader 148 0) [ppccItem val]

/-- The state after its parse. -/
def ppccParsed (val : Bytes) : Vault :=
  finalState (parseGddv sampleEnv 4 false (ppccVault val) (ppccVault val).length Vault.start)

/-- A parse that does not stop returns. -/
theorem returns_final {m : Parser (Int × Int)} {v : Vault} (h : stopOf (m v) = none) :
    ∃ r, Returns m v r (finalState (m v)) := by
  unfold Returns
  cases hm : m v with
  | ok r v' => exact ⟨r, rfl⟩
  | error e v' =>
      rw [hm] at h
      cases h

/-- A value of 156 bytes, with fields that fit. -/
def longPpcc : Bytes :=
  (List.replicate 13 ([4, 0, 0, 0] ++ toLittleEndian 8 1000)).flatten

end Thermald.Gddv
