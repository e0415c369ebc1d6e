import Mathlib.Data.List.Forall2
import Thermald.Gddv.Vault
import Thermald.Lib.Fuel

/-!
# The parser with more fuel

A run of the parser that does not run out of fuel is the run with any more fuel. The decoders are
taken one by one; in each of them only the loop depends on the fuel.
-/

namespace Thermald.Gddv

variable {fuel fuel' : Nat} (hle : fuel ≤ fuel')

/-! ## Decoders -/

section Decoders

variable (name : Option Bytes) (buf : Bytes) (len : Int)

include hle

theorem while_below_settles {β : Type} {body body' : β → Decoder β}
    (hbody : ∀ b, Settles .outOfFuel (body b) (body' b)) (b : β) :
    Settles .outOfFuel (whileBelow fuel len body b) (whileBelow fuel' len body' b) :=
  .loop hle hbody b

theorem parse_appc_settles :
    Settles .outOfFuel (parseAppc fuel buf len) (parseAppc fuel' buf len) := by
  unfold parseAppc
  refine .bind (.refl _) fun _ => .ite (fun _ => .refl _) fun _ => ?_
  refine .bind (.refl _) fun _ => .ite (fun _ => .refl _) fun _ => ?_
  refine .bind (.refl _) fun _ => .ite (fun _ => .refl _) fun _ => ?_
  exact .bind (while_below_settles hle len (fun _ => .refl _) ()) fun _ => .refl _

theorem parse_apat_settles :
    Settles .outOfFuel (parseApat fuel buf len) (parseApat fuel' buf len) := by
  unfold parseApat
  refine .bind (.refl _) fun _ => .bind (.refl _) fun _ => .ite (fun _ => .refl _) fun _ => ?_
  exact .bind (while_below_settles hle len (fun _ => .refl _) ()) fun _ => .refl _

theorem parse_condition_set_settles (count : Int) (body : SetState → Decoder SetState) :
    Settles .outOfFuel (parseConditionSet fuel count body) (parseConditionSet fuel' count body) :=
  .bind (.loop hle (fun _ => .refl _) _) fun _ => .refl _

theorem parse_apct_settles :
    Settles .outOfFuel (parseApct fuel buf len) (parseApct fuel' buf len) := by
  unfold parseApct
  refine .bind (.refl _) fun _ => .bind (.refl _) fun _ => .ite (fun _ => ?_) fun _ => ?_
  · refine .bind (while_below_settles hle len (fun _ => ?_) ()) fun _ => .refl _
    exact .bind (.refl _) fun _ => .ite (fun _ => .refl _) fun _ =>
      parse_condition_set_settles hle _ _
  · refine .ite (fun _ => ?_) fun _ => .refl _
    refine .bind (while_below_settles hle len (fun _ => ?_) ()) fun _ => .refl _
    exact .bind (.refl _) fun _ => .ite (fun _ => .refl _) fun _ => .bind (.refl _) fun _ =>
      parse_condition_set_settles hle _ _

theorem parse_psvt_settles :
    Settles .outOfFuel (parsePsvt fuel name buf len) (parsePsvt fuel' name buf len) := by
  unfold parsePsvt
  refine .bind (.refl _) fun _ => .bind (.refl _) fun _ => .ite (fun _ => .refl _) fun _ => ?_
  exact .bind (while_below_settles hle len (fun _ => .refl _) []) fun _ => .refl _

theorem parse_itmt3_settles :
    Settles .outOfFuel (parseItmt3 fuel name buf len) (parseItmt3 fuel' name buf len) := by
  unfold parseItmt3
  refine .bind (.refl _) fun _ => .ite (fun _ => .refl _) fun _ => ?_
  refine .bind (.refl _) fun _ => .bind (.refl _) fun _ => .ite (fun _ => .refl _) fun _ => ?_
  exact .bind (.loop hle (fun _ => .refl _) _) fun _ => .refl _

theorem parse_itmt_settles :
    Settles .outOfFuel (parseItmt fuel name buf len) (parseItmt fuel' name buf len) := by
  unfold parseItmt
  refine .bind (.refl _) fun _ => .bind (.refl _) fun _ => .ite (fun _ => .refl _) fun _ => ?_
  exact .bind (while_below_settles hle len (fun _ => .refl _) []) fun _ => .refl _

theorem parse_vspt_settles :
    Settles .outOfFuel (parseVspt fuel buf len) (parseVspt fuel' buf len) := by
  unfold parseVspt
  refine .bind (.refl _) fun _ => .bind (.refl _) fun _ => .ite (fun _ => .refl _) fun _ => ?_
  exact .bind (while_below_settles hle len (fun _ => .refl _) ()) fun _ => .refl _

theorem parse_vsct_settles :
    Settles .outOfFuel (parseVsct fuel name buf len) (parseVsct fuel' name buf len) := by
  unfold parseVsct
  refine .bind (.refl _) fun _ => .bind (.refl _) fun _ => .bind (.refl _) fun _ => ?_
  refine .ite (fun _ => .refl _) fun _ => ?_
  exact .bind (while_below_settles hle len (fun _ => .refl _) ()) fun _ => .refl _

theorem parse_trt_settles :
    Settles .outOfFuel (parseTrt fuel buf len) (parseTrt fuel' buf len) := by
  unfold parseTrt
  refine .bind (.refl _) fun _ => ?_
  exact .bind (while_below_settles hle len (fun _ => .refl _) ()) fun _ => .refl _

theorem parse_idsp_settles :
    Settles .outOfFuel (parseIdsp fuel buf len) (parseIdsp fuel' buf len) := by
  unfold parseIdsp
  refine .ite (fun _ => .refl _) fun _ => ?_
  exact .bind (.loop hle (fun _ => .refl _) _) fun _ => .refl _

end Decoders

/-! ## Keys -/

/-- Decoders that settle, one for one. -/
def Settled (ms ms' : List (Decoder Int)) : Prop := List.Forall₂ (Settles .outOfFuel) ms ms'

theorem Settled.append {ms ms' ns ns' : List (Decoder Int)} (h : Settled ms ms')
    (h' : Settled ns ns') : Settled (ms ++ ns) (ms' ++ ns') :=
  List.rel_append h h'

theorem Settled.one {m m' : Decoder Int} (h : Settles .outOfFuel m m') : Settled [m] [m'] :=
  .cons h .nil

theorem Settled.refl (ms : List (Decoder Int)) : Settled ms ms :=
  List.forall₂_same.2 fun m _ => .refl m

theorem Settled.ite {c : Prop} {_ : Decidable c} {ms ms' : List (Decoder Int)}
    (h : Settled ms ms') :
    Settled (if c then ms else []) (if c then ms' else []) := by
  split
  · exact h
  · exact .nil

include hle

theorem decoders_settle (p : KeyPath) (val : Bytes) (len : Int) :
    Settled (decoders fuel p val len) (decoders fuel' p val len) := by
  unfold decoders
  cases p.type with
  | none => exact .nil
  | some type =>
      have hidsp : Settled (p.name.toList.map fun _ => parseIdsp fuel val len)
          (p.name.toList.map fun _ => parseIdsp fuel' val len) := by
        cases p.name with
        | none => exact .nil
        | some _ => exact .one (parse_idsp_settles hle val len)
      refine .append (.append (.append (.append (.append (.append (.append (.append (.append
        (.append (.append (.refl _) (.ite (.one ?_))) (.ite (.one ?_))) (.ite (.one ?_)))
        (.ite (.one ?_))) (.ite (.one ?_))) (.ite (.one ?_))) (.ite hidsp)) (.refl _))
        (.ite (.one ?_))) (.ite (.one ?_))) (.ite (.one ?_))
      · exact parse_psvt_settles hle _ val len
      · exact parse_appc_settles hle val len
      · exact parse_apct_settles hle val len
      · exact parse_apat_settles hle val len
      · exact parse_itmt3_settles hle _ val len
      · exact parse_itmt_settles hle _ val len
      · exact parse_trt_settles hle val len
      · exact parse_vsct_settles hle _ val len
      · exact parse_vspt_settles hle val len

omit hle in
theorem decode_settles {m m' : Decoder Int} (h : Settles .outOfFuel m m') :
    Settles .outOfFuel (decode m) (decode m') := by
  refine ⟨fun v hv => ?_⟩
  have hm : stopOf (m ⟨0, v.gddv⟩) ≠ some .outOfFuel := by
    unfold decode at hv
    cases heq : m ⟨0, v.gddv⟩ with
    | ok a c => nofun
    | error e c =>
        rw [heq] at hv
        exact hv
  unfold decode
  rw [h.eq _ hm]

omit hle in
theorem run_decoders_settles {ms ms' : List (Decoder Int)} (h : Settled ms ms') :
    Settles .outOfFuel (runDecoders ms) (runDecoders ms') := by
  induction h with
  | nil => exact .refl _
  | cons h _ ih => exact .bind (decode_settles h) fun _ => ih

theorem dispatch_settles (key val : Bytes) :
    Settles .outOfFuel (dispatch fuel key val) (dispatch fuel' key val) := by
  unfold dispatch
  cases tokens (key.takeWhile fun b => b ≠ 0) with
  | nil => exact .refl _
  | cons str rest => exact run_decoders_settles (decoders_settle hle _ _ _)

theorem parse_gddv_key_settles (env : Env) (buf : Bytes) (base size : Int) :
    Settles .outOfFuel (parseGddvKey env fuel buf base size)
      (parseGddvKey env fuel' buf base size) := by
  have hvalue : ∀ key offset, Settles .outOfFuel (parseGddvValue env fuel buf base size key offset)
      (parseGddvValue env fuel' buf base size key offset) := by
    intro key offset
    unfold parseGddvValue
    refine .ite (fun _ => .refl _) fun _ => .bind (.refl _) fun _ => .bind (.refl _) fun _ => ?_
    refine .bind (.refl _) fun _ => .ite (fun _ => .refl _) fun _ => .bind (.refl _) fun _ => ?_
    refine .bind (.refl _) fun _ => .bind (.refl _) fun val => .bind ?_ fun _ => .refl _
    exact .bind (.refl _) fun _ => .bind (.refl _) fun _ => dispatch_settles hle key val
  unfold parseGddvKey
  refine .bind (.refl _) fun _ => .ite (fun _ => .refl _) fun _ => .bind (.refl _) fun _ => ?_
  refine .bind (.refl _) fun _ => .ite (fun _ => .refl _) fun _ => .bind (.refl _) fun _ => ?_
  exact .bind (.refl _) fun _ => .bind (.refl _) fun key => hvalue key _

/-! ## Repositories -/

theorem parse_items_settles (env : Env) {nested nested' : Bytes → Int → Parser (Int × Int)}
    (hnested : ∀ sub size, Settles .outOfFuel (nested sub size) (nested' sub size))
    (major headersize : Nat) (buf : Bytes) (size : Int) :
    Settles .outOfFuel (parseItems env fuel nested major headersize buf size)
      (parseItems env fuel' nested' major headersize buf size) := by
  have hitem : ∀ w, Settles .outOfFuel (parseItem env fuel nested major buf size w)
      (parseItem env fuel' nested' major buf size w) := by
    intro w
    unfold parseItem
    refine .bind (.refl _) fun _ => .ite (fun _ => ?_) fun _ => ?_
    · refine .bind (.refl _) fun _ =>
        .ite (fun _ => ?_) fun _ => .ite (fun _ => ?_) fun _ => .refl _
      · exact .bind (parse_gddv_key_settles hle env buf _ _) fun _ => .refl _
      · exact .bind (hnested _ _) fun _ => .refl _
    · exact .bind (parse_gddv_key_settles hle env buf _ _) fun _ => .refl _
  exact .bind (.loop hle hitem _) fun _ => .refl _

/-- The parser with more fuel. -/
theorem parse_gddv_settles (env : Env) (isNested : Bool) (buf : Bytes) (size : Int) :
    Settles .outOfFuel (parseGddv env fuel isNested buf size)
      (parseGddv env fuel' isNested buf size) := by
  induction fuel generalizing fuel' isNested buf size with
  | zero => exact ⟨fun _ h => absurd rfl h⟩
  | succ fuel ih =>
      obtain ⟨more, rfl⟩ : ∃ more, fuel' = more + 1 := ⟨fuel' - 1, by omega⟩
      have hfuel : fuel ≤ more := by omega
      unfold parseGddv
      refine .bind (.refl _) fun _ => .ite (fun _ => .refl _) fun _ => .bind (.refl _) fun _ => ?_
      refine .ite (fun _ => .refl _) fun _ => .bind (.refl _) fun _ => ?_
      refine .ite (fun _ => .refl _) fun _ => .bind (.refl _) fun _ => .bind (.refl _) fun _ => ?_
      refine .ite (fun _ => .bind (.refl _) fun r => ?_) fun _ => ?_
      · cases r with
        | none => exact .refl _
        | some out => exact .bind (ih hfuel false _ _) fun _ => .refl _
      · exact parse_items_settles hfuel env (fun sub size => ih hfuel true sub size) _ _ buf size

end Thermald.Gddv
