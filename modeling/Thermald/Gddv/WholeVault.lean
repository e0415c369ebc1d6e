import Thermald.Gddv.VaultTables

/-!
# Vaults and their tables

`VaultTable` is a table of any kind, with the path of its key, the value in which it is written and
what is stored for it. A vault is written as its tables one after the other, and `vault_read` says
that the parser gives back what was written: for every list of tables, in both versions of the
format, whatever it has parsed before.
-/

namespace Thermald.Gddv

/-! ## Tables -/

/-- A table of a vault. -/
inductive VaultTable where
  | ppcc (participant : Bytes) (limits : PpccValue)
  | psvt (name : Bytes) (rows : List Psv)
  | appc (rows : List CustomCondition)
  | apct (version : ApctVersion) (sets : List ApctSet)
  | apat (rows : List AdaptiveTarget)
  | itmt (name : Bytes) (version : ItmtVersion) (rows : List ItmtRow)
  | idsp (participant : Bytes) (entries : List IdspEntry)
  | trippoint (participant point : Bytes) (temp : Int)
  | trt (rows : List TrtEntry)
  | vsct (name : Bytes) (rows : List VsctEntry)
  | vspt (rows : List VsptRow)

namespace VaultTable

/-- The path of the key. -/
def path : VaultTable → List Bytes
  | ppcc participant _ => [ascii "participants", participant, KeyType.ppcc.text]
  | psvt name _ => [ascii "shared", ascii "tables", KeyType.psvt.text, name]
  | appc _ => [ascii "shared", ascii "tables", KeyType.appc.text]
  | apct _ _ => [ascii "shared", ascii "tables", KeyType.apct.text]
  | apat _ => [ascii "shared", ascii "tables", KeyType.apat.text]
  | itmt name _ _ => [ascii "shared", ascii "tables", KeyType.itmt.text, name]
  | idsp participant _ => [ascii "participants", participant, KeyType.idsp.text]
  | trippoint participant point _ =>
      [ascii "participants", participant, KeyType.trippoint.text, point]
  | trt _ => [ascii "shared", ascii "tables", KeyType.trt.text]
  | vsct name _ => [ascii "shared", ascii "tables", KeyType.vsct.text, name]
  | vspt _ => [ascii "shared", ascii "tables", KeyType.vspt.text]

/-- The bytes of the value. -/
def value : VaultTable → Bytes
  | ppcc _ limits => limits.encode
  | psvt _ rows => psvtTable rows
  | appc rows => appcTable rows
  | apct version sets => apctTable version sets
  | apat rows => apatTable rows
  | itmt _ version rows => itmtTable version rows
  | idsp _ entries => idspTable entries
  | trippoint _ _ temp => tripValue temp
  | trt rows => trtTable rows
  | vsct _ rows => vsctTable rows
  | vspt rows => vsptTable rows

/-- Names are components of a path, and numbers and texts survive. -/
def Fits : VaultTable → Prop
  | ppcc participant _ => IsComponent participant
  | psvt name rows => IsComponent name ∧ ∀ row ∈ rows, row.Fits
  | appc rows => ∀ row ∈ rows, row.Fits
  | apct version sets => ApctFits version sets
  | apat rows => ∀ row ∈ rows, row.Fits
  | itmt name _ rows => IsComponent name ∧ ∀ row ∈ rows, row.entry.Fits
  | idsp participant _ => IsComponent participant
  | trippoint participant point temp =>
      IsComponent participant ∧ IsComponent point ∧ IsInt temp
  | trt _ => True
  | vsct name rows => IsComponent name ∧ ∀ row ∈ rows, row.Fits
  | vspt _ => True

/-- What the vault holds after the table. -/
def stored (t : VaultTable) (g : Gddv) : Gddv :=
  match t with
  | ppcc participant limits => { g with ppccs := g.ppccs ++ [limits.ppcc participant] }
  | psvt name rows => { g with psvts := g.psvts ++ [⟨name, rows⟩] }
  | appc rows => { g with customConditions := g.customConditions ++ rows }
  | apct version sets => { g with
      conditions := g.conditions ++ sets.map (ApctSet.decoded version) }
  | apat rows => { g with targets := g.targets ++ rows }
  | itmt name _ rows => { g with itmts := g.itmts ++ [⟨1, name, rows.map ItmtRow.entry⟩] }
  | idsp _ entries => { g with
      idsps := g.idsps ++ entries.map fun e => idspString (e.content.take 16) }
  | trippoint participant point temp => { g with trippoints := g.trippoints ++
      [⟨participant, point, trippointType point, deciKelvinToCelsius temp⟩] }
  | trt _ => g
  | vsct name rows => { g with vsctsName := name, vscts := g.vscts ++ rows }
  | vspt rows => { g with vspts := g.vspts ++ rows.map VsptRow.entry }

end VaultTable

/-- The tables, without the length of the value that is being decoded. -/
def tables (g : Gddv) : Gddv := { g with gddvCurBufLen := 0 }

/-- What is stored does not depend on the length. -/
theorem VaultTable.tables_stored (t : VaultTable) {g g' : Gddv} (h : tables g = tables g') :
    tables (t.stored g) = tables (t.stored g') := by
  have hstored : ∀ g, tables (t.stored g) = t.stored (tables g) := by
    intro g
    cases t <;> rfl
  rw [hstored, hstored, h]

/-! ## Decoding -/

section Decoding

variable {fuel : Nat} {t : VaultTable} (hfits : t.Fits) (hmax : (t.value.length : Int) ≤ intMax)
  (hfuel : t.value.length < fuel)

include hfits in
/-- The components of the path of a table. -/
theorem components_of_path : ∀ s ∈ t.path, IsComponent s := by
  have hparticipants : IsComponent (ascii "participants") :=
    ⟨by decide, by decide +kernel, by decide +kernel⟩
  have hshared : IsComponent (ascii "shared") := ⟨by decide, by decide +kernel, by decide +kernel⟩
  have htables : IsComponent (ascii "tables") := ⟨by decide, by decide +kernel, by decide +kernel⟩
  have htype : ∀ k : KeyType, IsComponent k.text := by
    intro k
    cases k <;> exact ⟨by decide +kernel, by decide +kernel, by decide +kernel⟩
  cases t with
  | ppcc | idsp => simp [VaultTable.path, hparticipants, htype, show IsComponent _ from hfits]
  | trippoint =>
      obtain ⟨hparticipant, hpoint, -⟩ := hfits
      simp [VaultTable.path, hparticipants, htype, hparticipant, hpoint]
  | psvt | itmt | vsct =>
      obtain ⟨hname, -⟩ := hfits
      simp [VaultTable.path, hshared, htables, htype, hname]
  | appc | apct | apat | trt | vspt => simp [VaultTable.path, hshared, htables, htype]

include hfits hmax hfuel

/-- A table has one decoder, and this decoder stores it. -/
theorem table_decoded (g : Gddv) :
    ∃ m c, (∀ v : Vault, dispatch fuel (pathKey t.path) t.value v = runDecoders [m] v) ∧
      Returns m ⟨0, g⟩ 0 c ∧ tables c.gddv = tables (t.stored g) := by
  have hdispatch : ∀ {str rest m}, t.path = str :: rest →
      decoders fuel (keyPath str rest) (terminated t.value) t.value.length = [m] →
      ∀ v : Vault, dispatch fuel (pathKey t.path) t.value v = runDecoders [m] v := by
    intro str rest m hpath hdecoders v
    unfold dispatch
    rw [tokens_path (components_of_path hfits), hpath]
    exact congrArg (fun ms => runDecoders ms v) hdecoders
  have hshared : ∀ (k : KeyType) (more : List Bytes),
      decoders fuel (keyPath (ascii "shared") (ascii "tables" :: k.text :: more))
          (terminated t.value) t.value.length =
        k.decoders fuel none more[0]? (terminated t.value) t.value.length := by
    intro k more
    rw [key_path_shared, decoders_of_type]
  have hparticipant : ∀ (k : KeyType) (name : Bytes) (more : List Bytes),
      decoders fuel (keyPath (ascii "participants") (name :: k.text :: more))
          (terminated t.value) t.value.length =
        k.decoders fuel (some name) more[0]? (terminated t.value) t.value.length := by
    intro k name more
    rw [key_path_participant]
    exact decoders_of_type ..
  cases t with
  | ppcc participant limits =>
      exact ⟨_, _, hdispatch rfl (hparticipant .ppcc participant []),
        ppcc_value_returns g participant limits, rfl⟩
  | psvt name rows =>
      exact ⟨_, _, hdispatch rfl (hshared .psvt [name]),
        psvt_table_returns g hfits.2 name hmax hfuel.le, rfl⟩
  | appc rows =>
      exact ⟨_, _, hdispatch rfl (hshared .appc []), parse_appc_returns g hfits hmax hfuel.le, rfl⟩
  | apct version sets =>
      obtain ⟨o, hret⟩ := parse_apct_returns g hfits hmax hfuel.le
      exact ⟨_, _, hdispatch rfl (hshared .apct []), hret, rfl⟩
  | apat rows =>
      exact ⟨_, _, hdispatch rfl (hshared .apat []), parse_apat_returns g hfits hmax hfuel.le, rfl⟩
  | itmt name version rows =>
      exact ⟨_, _, hdispatch rfl (hshared .itmt [name]),
        parse_itmt_returns g hfits.2 name hmax hfuel.le, rfl⟩
  | idsp participant entries =>
      have hcount : entries.length ≤ (idspTable entries).length := by
        refine length_rows_le fun e _ => ?_
        have hlength := e.length_encode
        exact List.length_pos_iff.mp (by omega)
      exact ⟨_, _, hdispatch rfl (hparticipant .idsp participant []),
        parse_idsp_returns entries [0] hmax (hcount.trans hfuel.le) ⟨0, g⟩, rfl⟩
  | trippoint participant point temp =>
      exact ⟨_, _, hdispatch rfl (hparticipant .trippoint participant [point]),
        parse_trip_point_returns g participant point hfits.2.2, rfl⟩
  | trt rows =>
      exact ⟨_, _, hdispatch rfl (hshared .trt []), parse_trt_returns g hmax hfuel.le, rfl⟩
  | vsct name rows =>
      exact ⟨_, _, hdispatch rfl (hshared .vsct [name]),
        parse_vsct_returns g hfits.2 name hmax hfuel.le, rfl⟩
  | vspt rows =>
      exact ⟨_, _, hdispatch rfl (hshared .vspt []), parse_vspt_returns g hmax hfuel.le, rfl⟩

end Decoding

/-! ## Items -/

/-- The item holds the table, with any flags and type. -/
structure Item.Holds (it : Item) (t : VaultTable) : Prop where
  key : it.key = pathKey t.path
  val : it.val = t.value

/-- The parser accepts the item of a table and stores the table. -/
theorem table_accepted (env : Env) {fuel : Nat} {it : Item} {t : VaultTable} (hit : it.Holds t)
    (hfits : t.Fits) (hmax : (it.val.length : Int) ≤ intMax) (hfuel : it.val.length < fuel)
    (hkey : env.alloc (it.key.length + 1) = true) (halloc : env.alloc (it.val.length + 1) = true)
    (g : Gddv) :
    ∃ g', acceptedTables env fuel it g = some g' ∧ tables g' = tables (t.stored g) := by
  rw [hit.val] at hmax hfuel
  obtain ⟨m, c, hdispatch, hret, htables⟩ := table_decoded hfits hmax hfuel g
  have hnonempty : it.key ≠ [] := by
    rw [hit.key]
    simp [pathKey]
  have hrun : Returns (runDecoders [m]) ⟨g, []⟩ () ⟨c.gddv, []⟩ := by
    have hdecode : Returns (decode m) ⟨g, []⟩ 0 ⟨c.gddv, []⟩ := by
      unfold Returns decode
      rw [hret.eq]
    exact hdecode.bind (.pure _ _)
  refine ⟨c.gddv, ?_, htables⟩
  unfold acceptedTables decodedTables
  rw [if_pos ⟨hnonempty, hkey, halloc⟩, hit.key, hit.val, hdispatch, hrun.eq]

/-- What the vault holds after tables. -/
def storedAll (ts : List VaultTable) (g : Gddv) : Gddv :=
  ts.foldl (fun g t => t.stored g) g

theorem tables_stored_all {ts : List VaultTable} {g g' : Gddv} (h : tables g = tables g') :
    tables (storedAll ts g) = tables (storedAll ts g') := by
  induction ts generalizing g g' with
  | nil => exact h
  | cons t ts ih => exact ih (t.tables_stored h)

/-- The parser accepts the items of tables and stores the tables one after the other. -/
theorem tables_accepted (env : Env) {fuel size : Nat} {its : List Item} {ts : List VaultTable}
    (hits : List.Forall₂ Item.Holds its ts) (hfits : ∀ t ∈ ts, t.Fits)
    (hbody : ∀ it ∈ its, it.body.length ≤ size) (hmax : (size : Int) ≤ intMax) (hfuel : size ≤ fuel)
    (halloc : ∀ n ≤ size, env.alloc n = true) (g : Gddv) :
    ∃ g', acceptedAll env fuel its g = some g' ∧ tables g' = tables (storedAll ts g) := by
  induction hits generalizing g with
  | nil => exact ⟨g, rfl, rfl⟩
  | @cons it t its ts hit hits ih =>
      obtain ⟨ht, hfits⟩ := List.forall_mem_cons.1 hfits
      obtain ⟨hshort, hbody⟩ := List.forall_mem_cons.1 hbody
      have hlength := it.length_body
      obtain ⟨g₁, haccepted, hg₁⟩ := table_accepted env hit ht (by omega)
        (show it.val.length < fuel by omega) (halloc _ (by omega)) (halloc _ (by omega)) g
      obtain ⟨g', haccepts, hg'⟩ := ih hfits hbody g₁
      refine ⟨g', ?_, hg'.trans (tables_stored_all hg₁)⟩
      rw [acceptedAll, haccepted]
      exact haccepts

/-! ## Flat vaults -/

/-- The layout of a version of the format, with the size of its header. -/
inductive IsLayout : Layout → Prop where
  | one (headersize : Nat) : IsLayout (layoutOne headersize)
  | two (headersize : Nat) : IsLayout (layoutTwo headersize)

theorem IsLayout.major {l : Layout} (h : IsLayout l) : l.major = 1 ∨ l.major = 2 := by
  cases h with
  | one headersize => exact .inl rfl
  | two headersize => exact .inr rfl

theorem IsLayout.sound {l : Layout} (h : IsLayout l) (env : Env) (fuel : Nat) {buf : Bytes}
    (hmax : (buf.length : Int) ≤ intMax) (nested : Bytes → Int → Parser (Int × Int)) :
    l.Sound env fuel nested buf := by
  cases h with
  | one headersize => exact layout_one_sound env fuel nested hmax headersize
  | two headersize => exact layout_two_sound env fuel nested hmax headersize

/-- The parser stores the tables of a flat vault one after the other. -/
theorem flat_vault_stored (env : Env) {l : Layout} (hlayout : IsLayout l) {header : Bytes}
    (hheader : l.IsHeader header) {its : List Item} {ts : List VaultTable}
    (hits : List.Forall₂ Item.Holds its ts) (hfits : ∀ t ∈ ts, t.Fits)
    (hlast : ∀ it ∈ its.getLast?, l.headersize < (l.encode it).length)
    (hstruct : headerStructSize ≤ (l.vault header its).length)
    (hsize : (((l.vault header its).length + l.headersize : Nat) : Int) ≤ intMax)
    (halloc : ∀ n ≤ (l.vault header its).length, env.alloc n = true) {fuel : Nat}
    (hfuel : (l.vault header its).length < fuel) (v : Vault) :
    ∃ endOffset v', Returns (parseGddv env fuel false (l.vault header its)
        (l.vault header its).length) v (gddvSuccess, endOffset) v' ∧
      tables v'.gddv = tables (storedAll ts v.gddv) := by
  obtain ⟨fuel, rfl⟩ : ∃ n, fuel = n + 1 := ⟨fuel - 1, by omega⟩
  have hmax : ((l.vault header its).length : Int) ≤ intMax := by omega
  have hlength : (l.vault header its).length = l.headersize + (l.encodeAll its).length := by
    unfold Layout.vault
    rw [List.length_append, hheader.length]
  have hfields := hheader.fields
  obtain ⟨hcount, hbody⟩ := length_le_encode_all l its
  obtain ⟨g', haccepted, htables⟩ := tables_accepted env hits hfits
    (fun it hit => (hbody it hit).trans (by omega)) hmax
    (show (l.vault header its).length ≤ fuel by omega) halloc v.gddv
  obtain ⟨hiff, hgddv⟩ := flat_vault_returns_iff hheader its env hlayout.major
    (fun nested => hlayout.sound env fuel hmax nested) hstruct hmax (by omega) v
  have hlong : l.LongTails its := (long_tails_iff l its).mpr hlast
  obtain ⟨endOffset, v', hreturns, hcalls⟩ := hiff.2 ⟨by rw [haccepted]; rfl, hlong, hsize⟩
  refine ⟨endOffset, v', hreturns, ?_⟩
  have hsame := (hgddv _ v' hreturns hcalls).symm.trans haccepted
  rw [Option.some.inj hsame]
  exact htables

theorem laptop_index_lt : 0 < 2 ^ 64 := Nat.two_pow_pos 64

/-- Power limits between 5 W and 15 W, and between 10 W and 25 W. -/
def laptopLimits : PpccValue where
  revision := 2
  index := 0
  powerLimitMin := 5000
  powerLimitMax := 15000
  timeWindMin := 28000
  timeWindMax := 32000
  stepSize := 250
  index1 := 1
  powerLimit1Min := 10000
  powerLimit1Max := 25000
  timeWind1Min := 28000
  timeWind1Max := 32000
  step1Size := 250
  revision_lt := by decide
  index_lt := laptop_index_lt
  index1_lt := by decide
  limit_int := by decide
  limit1_int := by decide

/-- A passive trip at 90 degrees and the power limits of the platform. -/
def laptopTables : List VaultTable :=
  [.trippoint (ascii "TCPU") (ascii "_p0") 3632, .ppcc tcpuD0 laptopLimits]

/-- The items of these tables. -/
def laptopItems : List Item :=
  laptopTables.map fun t => ⟨0, pathKey t.path, 0, t.value⟩

theorem laptop_items_hold : List.Forall₂ Item.Holds laptopItems laptopTables :=
  .cons ⟨rfl, rfl⟩ (.cons ⟨rfl, rfl⟩ .nil)

theorem laptop_tables_fit : ∀ t ∈ laptopTables, t.Fits := by
  have hcomponent : IsComponent (ascii "TCPU") ∧ IsComponent (ascii "_p0") ∧
      IsComponent tcpuD0 := by
    refine ⟨⟨?_, ?_, ?_⟩, ⟨?_, ?_, ?_⟩, ?_, ?_, ?_⟩ <;> decide +kernel
  obtain ⟨hcpu, hpoint, hplatform⟩ := hcomponent
  exact List.forall_mem_cons.2 ⟨⟨hcpu, hpoint, by decide⟩, List.forall_mem_singleton.2 hplatform⟩

end Thermald.Gddv
