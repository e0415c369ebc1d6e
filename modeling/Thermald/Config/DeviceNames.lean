import Thermald.Config.CoolingDevices

/-!
# Numbers and names of cooling devices

Devices are only ever appended, so a device is told from the others by its number if the numbers
below the next one stay distinct (`Grew`), and a name that has a device keeps it. Both hold over
the start and everything that follows it, but for the alias that the two power limits share.
-/

namespace Thermald

variable {δ : Type}

/-! ## What stays the same -/

/-- A device keeps its number and its type. -/
structure Cdev.SameKind (d d' : Cdev δ) : Prop where
  index : d'.index = d.index
  typeStr : d'.typeStr = d.typeStr

theorem Cdev.SameId.refl (d : Cdev δ) : d.SameId d := ⟨rfl, rfl, rfl⟩

theorem Cdev.SameId.trans {a b c : Cdev δ} (h : a.SameId b) (h' : b.SameId c) : a.SameId c :=
  ⟨h'.index.trans h.index, h'.typeStr.trans h.typeStr, h'.aliasStr.trans h.aliasStr⟩

theorem Cdev.SameId.kind {a b : Cdev δ} (h : a.SameId b) : a.SameKind b := ⟨h.index, h.typeStr⟩

theorem Cdev.SameKind.trans {a b c : Cdev δ} (h : a.SameKind b) (h' : b.SameKind c) :
    a.SameKind c :=
  ⟨h'.index.trans h.index, h'.typeStr.trans h.typeStr⟩

/-- The first place where something holds stays the first one if nothing changes before it. -/
theorem find_range_grow {p q : Nat → Bool} {n m k : Nat} (hfound : (List.range n).find? p = some k)
    (hle : n ≤ m) (hsame : ∀ i < n, q i = p i) : (List.range m).find? q = some k := by
  rw [List.find?_range_eq_some] at hfound ⊢
  obtain ⟨hk, hmem, hbefore⟩ := hfound
  have hlt : k < n := List.mem_range.mp hmem
  refine ⟨(hsame k hlt).trans hk, List.mem_range.mpr (hlt.trans_le hle), fun i hi => ?_⟩
  rw [hsame i (hi.trans hlt)]
  exact hbefore i hi

namespace CdevStore

/-- Devices have been appended with the numbers from the next one on, and those that were there are
related to what they were. -/
structure Grew (R : Cdev δ → Cdev δ → Prop) (s s' : CdevStore δ) : Prop where
  count : s.count ≤ s'.count
  kept : ∀ k < s.count, R (s.world.cdevs k) (s'.world.cdevs k)
  added : ∀ k, s.count ≤ k → k < s'.count →
    (s'.world.cdevs k).index = s.currentCdevIndex + ((k - s.count : Nat) : Int)
  current : s'.currentCdevIndex = s.currentCdevIndex + ((s'.count - s.count : Nat) : Int)

variable {s s' s'' : CdevStore δ}

theorem Grew.mono {R R' : Cdev δ → Cdev δ → Prop} (h : Grew R s s')
    (himp : ∀ d d', R d d' → R' d d') : Grew R' s s' :=
  ⟨h.count, fun k hk => himp _ _ (h.kept k hk), h.added, h.current⟩

/-- Both relations keep the number. -/
theorem Grew.trans_of {R : Cdev δ → Cdev δ → Prop} (hindex : ∀ d d', R d d' → d'.index = d.index)
    (htrans : ∀ a b c, R a b → R b c → R a c) (h : Grew R s s') (h' : Grew R s' s'') :
    Grew R s s'' := by
  refine ⟨h.count.trans h'.count, fun k hk => ?_, fun k hle hlt => ?_, ?_⟩
  · exact htrans _ _ _ (h.kept k hk) (h'.kept k (hk.trans_le h.count))
  · rcases Nat.lt_or_ge k s'.count with hold | hnew
    · rw [hindex _ _ (h'.kept k hold)]
      exact h.added k hle hold
    · rw [h'.added k hnew hlt, h.current]
      have := h.count
      omega
  · rw [h'.current, h.current]
    have := h.count
    have := h'.count
    omega

theorem Grew.trans (h : Grew Cdev.SameId s s') (h' : Grew Cdev.SameId s' s'') :
    Grew Cdev.SameId s s'' :=
  trans_of (fun _ _ h => h.index) (fun _ _ _ => Cdev.SameId.trans) h h'

theorem Grew.trans_kind (h : Grew Cdev.SameKind s s') (h' : Grew Cdev.SameKind s' s'') :
    Grew Cdev.SameKind s s'' :=
  trans_of (fun _ _ h => h.index) (fun _ _ _ => Cdev.SameKind.trans) h h'

theorem Grew.kind (h : Grew Cdev.SameId s s') : Grew Cdev.SameKind s s' :=
  h.mono fun _ _ => Cdev.SameId.kind

theorem Grew.refl (s : CdevStore δ) : Grew Cdev.SameId s s :=
  ⟨le_rfl, fun _ _ => .refl _, fun k hle hlt => absurd hlt (by omega), by simp⟩

/-! ## Operations -/

theorem cdevs_push_old (index : Int) (path : String) (d : Cdev δ) {k : Nat} (hk : k < s.count) :
    (s.push index path d).world.cdevs k = s.world.cdevs k := by
  show Function.update s.world.cdevs s.count _ k = _
  rw [Function.update_of_ne (by omega)]

theorem cdevs_push_new (index : Int) (path : String) (d : Cdev δ) :
    (s.push index path d).world.cdevs s.count = { d with index := index } := by
  show Function.update s.world.cdevs s.count _ s.count = _
  rw [Function.update_self]

theorem grew_add (s : CdevStore δ) (path : String) (d : Option (Cdev δ)) :
    Grew Cdev.SameId s (s.add path d) := by
  cases d with
  | none => exact .refl s
  | some d =>
      refine ⟨Nat.le_succ _, fun k hk => ?_, fun k hle hlt => ?_, ?_⟩
      · show Cdev.SameId _ ((s.push s.currentCdevIndex path d).world.cdevs k)
        rw [cdevs_push_old _ _ _ hk]
        exact .refl _
      · obtain rfl : k = s.count := by
          have : k < s.count + 1 := hlt
          omega
        show ((s.push s.currentCdevIndex path d).world.cdevs s.count).index = _
        rw [cdevs_push_new]
        show s.currentCdevIndex = s.currentCdevIndex + ((s.count - s.count : Nat) : Int)
        omega
      · show s.currentCdevIndex + 1 =
          s.currentCdevIndex + ((s.count + 1 - s.count : Nat) : Int)
        omega

theorem cdevs_modify (s : CdevStore δ) (k : Nat) (f : Cdev δ → Cdev δ) (j : Nat) :
    (s.modify k f).world.cdevs j = if j = k then f (s.world.cdevs k) else s.world.cdevs j := by
  show Function.update s.world.cdevs k _ j = _
  rw [Function.update_apply]

/-- A change of one device appends nothing. -/
theorem grew_modify {R : Cdev δ → Cdev δ → Prop} (s : CdevStore δ) (k : Nat) {f : Cdev δ → Cdev δ}
    (hrefl : ∀ d, R d d) (hf : ∀ d, R d (f d)) : Grew R s (s.modify k f) := by
  refine ⟨le_rfl, fun j _ => ?_, fun j hle hlt => absurd hlt hle.not_gt, ?_⟩
  · rw [cdevs_modify]
    split
    · rename_i hj
      rw [hj]
      exact hf _
    · exact hrefl _
  · show s.currentCdevIndex = s.currentCdevIndex + ((s.count - s.count : Nat) : Int)
    omega

section Configure

variable [ConfigCdev δ]

/-- The settings of a device are not its names. -/
theorem configure_same (c : CoolingDevConf) (d : Cdev δ) : d.SameId (configure c d) := by
  have hif (b : Bool) (f : Cdev δ → Cdev δ) (hf : ∀ d : Cdev δ, d.SameId (f d)) {d' : Cdev δ}
      (h : d.SameId d') : d.SameId (if b then f d' else d') := by
    split
    · exact h.trans (hf d')
    · exact h
  have hset : ∀ {d d' : Cdev δ}, d.index = d'.index → d.typeStr = d'.typeStr →
      d.aliasStr = d'.aliasStr → d.SameId d' := fun h h' h'' => ⟨h.symm, h'.symm, h''.symm⟩
  unfold configure
  refine hif _ (fun d => ConfigCdev.thdCdevSetWritePrefix d c.writePrefix)
    (fun d => ConfigCdev.same_prefix d _) ?_
  refine hif _ (setPid c) (fun d => hset rfl rfl rfl) ?_
  refine hif _ (fun d => { d with debounceInterval := c.debounceInterval })
    (fun d => hset rfl rfl rfl) ?_
  refine hif _ (fun d => { d with readBack := c.readBack }) (fun d => hset rfl rfl rfl) ?_
  refine hif _ (fun d => { d with maxState := c.maxState }) (fun d => hset rfl rfl rfl) ?_
  refine hif _ (fun d => ConfigCdev.thdCdevSetMinStateParam d c.minState)
    (fun d => ConfigCdev.same_min d _) ?_
  refine hif _ (fun d => { d with incDecVal := c.incDecStep }) (fun d => hset rfl rfl rfl) ?_
  exact hif _ (fun d => { d with autoDownAdjust := c.autoDownControl })
    (fun d => hset rfl rfl rfl) (.refl d)

theorem grew_add_replace (files : GenFiles δ) (s : CdevStore δ) (c : CoolingDevConf) :
    Grew Cdev.SameId s (s.addReplaceCdev files c) := by
  unfold addReplaceCdev
  split
  · exact grew_modify s _ .refl (configure_same c)
  · split
    · exact .refl s
    · exact (grew_add s _ _).trans (grew_modify _ _ .refl (configure_same c))

omit [ConfigCdev δ] in
theorem grew_user_add (files : GenFiles δ) (s : CdevStore δ) (name path : String)
    (minState maxState step : Int) :
    Grew Cdev.SameId s (s.userAddCdev files name path minState maxState step) := by
  unfold userAddCdev
  dsimp only
  split
  · exact grew_modify s _ .refl fun _ => ⟨rfl, rfl, rfl⟩
  · split
    · exact .refl s
    · exact (grew_add s _ _).trans (grew_modify _ _ .refl fun _ => ⟨rfl, rfl, rfl⟩)

omit [ConfigCdev δ] in
theorem grew_add_class (s : CdevStore δ) (typeStr aliasStr : String) (f : Option (FoundCdev δ)) :
    Grew Cdev.SameId s (s.addClass typeStr aliasStr f) := by
  cases f with
  | none => exact .refl s
  | some f => exact grew_add s f.path (some { f.cdev with typeStr, aliasStr })

/-- The power limit in registers loses its alias. -/
theorem grew_add_rapl_mmio (s : CdevStore δ) (rapl : Option Nat) (adaptiveMode : Bool)
    (mmio : Option (FoundCdev δ)) :
    Grew Cdev.SameKind s (s.addRaplMmio rapl adaptiveMode mmio) := by
  cases mmio with
  | none => exact (Grew.refl s).kind
  | some f =>
      unfold addRaplMmio
      cases rapl with
      | none => exact (grew_add_class s _ _ _).kind
      | some k =>
          refine Grew.trans_kind (grew_modify s k (fun _ => ⟨rfl, rfl⟩) fun d => ?_)
            (grew_add_class _ _ _ _).kind
          dsimp only
          split
          · exact ⟨ConfigCdev.index_eq _ _, AdaptiveCdev.type_str_eq _ _⟩
          · exact ⟨rfl, rfl⟩

/-- A part of a run that only configures devices. -/
theorem grew_configured (files : GenFiles δ) (s : CdevStore δ) (confs : List CoolingDevConf) :
    Grew Cdev.SameId s (confs.foldl (fun s c => s.addReplaceCdev files c) s) := by
  induction confs generalizing s with
  | nil => exact .refl s
  | cons c rest ih => exact (grew_add_replace files s c).trans (ih _)

theorem grew_read_other (s : CdevStore δ) (r : DeviceReads δ) :
    Grew Cdev.SameId s (s.readOtherDevices r) := by
  unfold readOtherDevices
  refine Grew.trans ?_ (grew_configured r.files _ r.coolingDevs)
  have hpState := grew_add_class s "intel_pstate" "" r.pState
  have hcpu := hpState.trans (grew_configured r.files _ cpuDefCoolingDevices)
  have hcpufreq := hcpu.trans (grew_add_class _ "cpufreq" "" r.cpufreq)
  have hdram := hcpufreq.trans (grew_add_class _ "rapl_controller_dram" "" r.raplDram)
  split
  · exact hdram
  · exact hdram.trans (grew_add_class _ "LCD" "" r.backlight)

/-- Everything behind the devices of the kernel. -/
theorem grew_read_power (s : CdevStore δ) (r : DeviceReads δ) :
    Grew Cdev.SameKind (s.thdReadDefaultCoolingDevices r.entries) (s.readPowerLimits r) := by
  unfold readPowerLimits
  dsimp only
  split
  · exact (grew_add_class _ _ _ _).kind.trans_kind (grew_add_rapl_mmio _ _ _ _)
  · exact (grew_add_class _ _ _ _).kind

theorem grew_run (s : CdevStore δ) (ops : List (CdevOp δ)) :
    Grew Cdev.SameId s (run step s ops) := by
  refine run_history (I := fun _ s' => Grew Cdev.SameId s s') (.refl s) fun _ s' op _ h => ?_
  cases op with
  | configured files c => exact h.trans (grew_add_replace files s' c)
  | user files name path minState maxState step =>
      exact h.trans (grew_user_add files s' name path minState maxState step)

end Configure

/-! ## The devices of the kernel -/

/-- What the loop over the directories leaves, from a store and a greatest number: the devices that
can be read are behind those that were there, and no number is greater than the last one. -/
structure ReadKernel (s : CdevStore δ) (max : Int) (entries : List (ThermalDirEntry δ))
    (s' : CdevStore δ × Int) : Prop where
  count : s'.1.count = s.count + (entries.filterMap ThermalDirEntry.loaded).length
  old : ∀ k < s.count, s'.1.world.cdevs k = s.world.cdevs k
  new : ∀ k n d, (entries.filterMap ThermalDirEntry.loaded)[k]? = some (n, d) →
    s'.1.world.cdevs (s.count + k) = { d with index := n }
  current : s'.1.currentCdevIndex = s.currentCdevIndex
  max_le : max ≤ s'.2
  numbers : ∀ n ∈ entries.filterMap ThermalDirEntry.number, n ≤ s'.2

theorem read_kernel (entries : List (ThermalDirEntry δ)) (s : CdevStore δ) (max : Int) :
    ReadKernel s max entries (entries.foldl readEntry (s, max)) := by
  induction entries generalizing s max with
  | nil =>
      refine ⟨rfl, fun _ _ => rfl, fun k n d h => ?_, rfl, le_rfl, List.forall_mem_nil _⟩
      cases h
  | cons e rest ih =>
      rw [List.foldl_cons]
      cases hnumber : e.number with
      | none =>
          have hstep : readEntry (s, max) e = (s, max) := by simp only [readEntry, hnumber]
          rw [hstep]
          have hloaded : (e :: rest).filterMap ThermalDirEntry.loaded =
              rest.filterMap ThermalDirEntry.loaded :=
            List.filterMap_cons_none (by simp [ThermalDirEntry.loaded, hnumber])
          have h := ih s max
          refine ⟨?_, h.old, ?_, h.current, h.max_le, ?_⟩
          · rw [hloaded]
            exact h.count
          · rw [hloaded]
            exact h.new
          · rw [List.filterMap_cons_none hnumber]
            exact h.numbers
      | some i =>
          obtain ⟨max', hmax⟩ : ∃ max', (if max < i then i else max) = max' := ⟨_, rfl⟩
          have hle : max ≤ max' ∧ i ≤ max' := by
            rw [← hmax]
            split <;> omega
          have hnumbers {s' : CdevStore δ × Int} (h : max' ≤ s'.2)
              (hrest : ∀ n ∈ rest.filterMap ThermalDirEntry.number, n ≤ s'.2) :
              ∀ n ∈ (e :: rest).filterMap ThermalDirEntry.number, n ≤ s'.2 := by
            rw [List.filterMap_cons_some hnumber]
            refine List.forall_mem_cons.mpr ⟨hle.2.trans h, hrest⟩
          cases hdevice : e.device with
          | none =>
              have hstep : readEntry (s, max) e = (s, max') := by
                simp only [readEntry, hnumber, hdevice, hmax]
              rw [hstep]
              have hloaded : (e :: rest).filterMap ThermalDirEntry.loaded =
                  rest.filterMap ThermalDirEntry.loaded :=
                List.filterMap_cons_none (by simp [ThermalDirEntry.loaded, hnumber, hdevice])
              have h := ih s max'
              refine ⟨?_, h.old, ?_, h.current, hle.1.trans h.max_le, hnumbers h.max_le h.numbers⟩
              · rw [hloaded]
                exact h.count
              · rw [hloaded]
                exact h.new
          | some d =>
              have hstep : readEntry (s, max) e = (s.push i "/sys/class/thermal/" d, max') := by
                simp only [readEntry, hnumber, hdevice, hmax]
              rw [hstep]
              have hloaded : (e :: rest).filterMap ThermalDirEntry.loaded =
                  (i, d) :: rest.filterMap ThermalDirEntry.loaded :=
                List.filterMap_cons_some (by simp [ThermalDirEntry.loaded, hnumber, hdevice])
              have h := ih (s.push i "/sys/class/thermal/" d) max'
              have hcount : (s.push i "/sys/class/thermal/" d).count = s.count + 1 := rfl
              refine ⟨?_, fun k hk => ?_, fun k n d' hk => ?_, h.current, hle.1.trans h.max_le,
                hnumbers h.max_le h.numbers⟩
              · rw [hloaded, List.length_cons, h.count, hcount]
                omega
              · exact (h.old k (by omega)).trans (cdevs_push_old i _ d hk)
              · rw [hloaded] at hk
                cases k with
                | zero =>
                    obtain ⟨rfl, rfl⟩ : i = n ∧ d = d' := by simpa using hk
                    exact (h.old s.count (by omega)).trans (cdevs_push_new i _ d)
                | succ k =>
                    have hnew := h.new k n d' hk
                    rw [hcount] at hnew
                    rw [← hnew]
                    congr 1
                    omega

/-- The engine before it has a device. -/
def empty (w : World δ) : CdevStore δ where
  world := { w with cdevCount := 0 }
  basePath _ := ""
  currentCdevIndex := 0

section Numbers

/-- The number from which the daemon numbers its own devices is above all of the kernel, or 0 if
none of those could be read. -/
theorem kernel_current (w : World δ) (r : DeviceReads δ) :
    (r.devices = [] →
      ((empty w).thdReadDefaultCoolingDevices r.entries).currentCdevIndex = 0) ∧
    (r.devices ≠ [] → ∀ n ∈ r.numbers,
      n < ((empty w).thdReadDefaultCoolingDevices r.entries).currentCdevIndex) := by
  have h := read_kernel r.entries (empty w) 0
  have hcount : (r.entries.foldl readEntry (empty w, 0)).1.count = r.devices.length :=
    h.count.trans (Nat.zero_add _)
  unfold thdReadDefaultCoolingDevices
  dsimp only
  rw [hcount]
  refine ⟨fun hnone => ?_, fun hsome n hn => ?_⟩
  · rw [if_neg (by rw [hnone]; simp)]
    exact h.current
  · rw [if_pos (by simpa using hsome)]
    show n < (r.entries.foldl readEntry (empty w, 0)).2 + 1
    have := h.numbers n hn
    omega

/-- The devices of the kernel come first. -/
theorem kernel_devices (w : World δ) (r : DeviceReads δ) :
    ((empty w).thdReadDefaultCoolingDevices r.entries).count = r.devices.length ∧
    ∀ k n d, r.devices[k]? = some (n, d) →
      ((empty w).thdReadDefaultCoolingDevices r.entries).world.cdevs k =
        { d with index := n } := by
  have h := read_kernel r.entries (empty w) 0
  have hworld : ((empty w).thdReadDefaultCoolingDevices r.entries).world =
      (r.entries.foldl readEntry (empty w, 0)).1.world := by
    unfold thdReadDefaultCoolingDevices
    dsimp only
    split <;> rfl
  unfold count
  rw [hworld]
  refine ⟨h.count.trans (Nat.zero_add _), fun k n d hk => ?_⟩
  have hnew := h.new k n d hk
  rwa [show (empty w).count + k = k from Nat.zero_add k] at hnew

/-- A device that can be read has a directory. -/
theorem device_number {r : DeviceReads δ} {n : Int} {d : Cdev δ} (h : (n, d) ∈ r.devices) :
    n ∈ r.numbers := by
  obtain ⟨e, he, hloaded⟩ := List.mem_filterMap.mp h
  obtain ⟨i, hi, hdevice⟩ := Option.bind_eq_some_iff.mp hloaded
  obtain ⟨d', -, heq⟩ := Option.map_eq_some_iff.mp hdevice
  obtain rfl : i = n := congrArg Prod.fst heq
  exact List.mem_filterMap.mpr ⟨e, he, hi⟩

/-- The numbers of the devices that can be read are distinct if those of the directories are. -/
theorem device_numbers_nodup {r : DeviceReads δ} (h : r.numbers.Nodup) :
    (r.devices.map Prod.fst).Nodup := by
  refine h.sublist ?_
  unfold DeviceReads.devices DeviceReads.numbers
  rw [List.map_filterMap]
  induction r.entries with
  | nil => exact .slnil
  | cons e rest ih =>
      cases hnumber : e.number with
      | none =>
          rw [List.filterMap_cons_none (by simp [ThermalDirEntry.loaded, hnumber]),
            List.filterMap_cons_none hnumber]
          exact ih
      | some n =>
          rw [List.filterMap_cons_some hnumber]
          cases hdevice : e.device with
          | none =>
              rw [List.filterMap_cons_none (by simp [ThermalDirEntry.loaded, hnumber, hdevice])]
              exact ih.cons n
          | some d =>
              rw [List.filterMap_cons_some (b := n)
                (by simp [ThermalDirEntry.loaded, hnumber, hdevice])]
              exact ih.cons_cons n

/-- The first device with a number is the one that is found. -/
theorem found_of_first {w : World δ} {n : Int} {k : Nat} (hk : k < w.cdevCount)
    (hindex : (w.cdevs k).index = n) (hfirst : ∀ j < k, (w.cdevs j).index ≠ n) :
    w.thdGetCdevAtIndex n = some k := by
  unfold World.thdGetCdevAtIndex
  rw [List.find?_range_eq_some]
  refine ⟨decide_eq_true hindex, List.mem_range.mpr hk, fun j hj => ?_⟩
  rw [decide_eq_false (hfirst j hj)]
  rfl

variable [ConfigCdev δ]

/-- The devices after the start and some operations. -/
abbrev after (w : World δ) (r : DeviceReads δ) (ops : List (CdevOp δ)) : CdevStore δ :=
  run step ((empty w).readCoolingDevices r) ops

/-- Everything behind the devices of the kernel appends devices. -/
theorem grew_after (w : World δ) (r : DeviceReads δ) (ops : List (CdevOp δ)) :
    Grew Cdev.SameKind ((empty w).thdReadDefaultCoolingDevices r.entries) (after w r ops) :=
  (grew_read_power (empty w) r).trans_kind ((grew_read_other _ r).trans (grew_run _ ops)).kind

variable (w : World δ) {r : DeviceReads δ} (ops : List (CdevOp δ))

/-- The numbers and types of the devices of the kernel. -/
theorem after_kernel {k : Nat} {n : Int} {d : Cdev δ} (hk : r.devices[k]? = some (n, d)) :
    ((after w r ops).world.cdevs k).index = n ∧
      ((after w r ops).world.cdevs k).typeStr = d.typeStr := by
  obtain ⟨hcount, hdevices⟩ := kernel_devices w r
  have hlt : k < r.devices.length := (List.getElem?_eq_some_iff.mp hk).1
  have hkept := (grew_after w r ops).kept k (by omega)
  rw [hdevices k n d hk] at hkept
  exact ⟨hkept.index, hkept.typeStr⟩

/-- The numbers of the other devices. -/
theorem after_own {k : Nat} (hle : r.devices.length ≤ k) (hlt : k < (after w r ops).count) :
    ((after w r ops).world.cdevs k).index =
      ((empty w).thdReadDefaultCoolingDevices r.entries).currentCdevIndex +
        ((k - r.devices.length : Nat) : Int) := by
  obtain ⟨hcount, -⟩ := kernel_devices w r
  have hadded := (grew_after w r ops).added k (by omega) hlt
  rwa [hcount] at hadded

/-- No two devices have the same number. -/
theorem after_distinct (hdistinct : r.numbers.Nodup) {j k : Nat} (hjk : j < k)
    (hk : k < (after w r ops).count) :
    ((after w r ops).world.cdevs j).index ≠ ((after w r ops).world.cdevs k).index := by
  obtain ⟨-, habove⟩ := kernel_current w r
  rcases Nat.lt_or_ge j r.devices.length with hj | hj
  · rw [(after_kernel w ops (List.getElem?_eq_getElem hj)).1]
    rcases Nat.lt_or_ge k r.devices.length with hkernel | hown
    · rw [(after_kernel w ops (List.getElem?_eq_getElem hkernel)).1]
      have hpair := List.pairwise_iff_getElem.mp (device_numbers_nodup hdistinct) j k
        (by simpa using hj) (by simpa using hkernel) hjk
      rwa [List.getElem_map, List.getElem_map] at hpair
    · have hlt := habove (List.ne_nil_of_length_pos (by omega)) _
        (device_number (List.getElem_mem hj))
      rw [after_own w ops hown hk]
      omega
  · rw [after_own w ops hj (by omega), after_own w ops (hj.trans hjk.le) hk]
    omega

/-- A device is found by its number, whatever is added to the devices of the kernel later. A number
of the kernel means the kernel's device. One whose device could not be read means no device at all,
exactly if another device of the kernel could be read or the daemon has not come to that number
with its own devices. -/
theorem kernel_devices_found (w : World δ) (r : DeviceReads δ) (ops : List (CdevOp δ))
    (hdistinct : r.numbers.Nodup) (hnonneg : ∀ n ∈ r.numbers, 0 ≤ n) :
    (∀ k < (after w r ops).count, (after w r ops).world.thdGetCdevAtIndex
        ((after w r ops).world.cdevs k).index = some k) ∧
      (∀ k n d, r.devices[k]? = some (n, d) →
        (after w r ops).world.thdGetCdevAtIndex n = some k ∧
          ((after w r ops).world.cdevs k).typeStr = d.typeStr) ∧
      ((∀ n ∈ r.numbers, n ∉ r.devices.map Prod.fst →
          (after w r ops).world.thdGetCdevAtIndex n = none) ↔
        r.devices ≠ [] ∨ ∀ n ∈ r.numbers, (after w r ops).currentCdevIndex ≤ n) := by
  obtain ⟨hzero, habove⟩ := kernel_current w r
  have hcount : r.devices.length ≤ (after w r ops).count := by
    rw [← (kernel_devices w r).1]
    exact (grew_after w r ops).count
  have hcurrent := (grew_after w r ops).current
  rw [(kernel_devices w r).1] at hcurrent
  have hown (k : Nat) (hk : k < (after w r ops).count) : (after w r ops).world.thdGetCdevAtIndex
      ((after w r ops).world.cdevs k).index = some k :=
    found_of_first hk rfl fun j hj => after_distinct w ops hdistinct hj hk
  refine ⟨hown, fun k n d hk => ?_, fun hnone => ?_, fun hcases n hn hunread => ?_⟩
  · obtain ⟨hindex, htype⟩ := after_kernel w ops hk
    have hlt := (List.getElem?_eq_some_iff.mp hk).1
    refine ⟨?_, htype⟩
    rw [← hindex]
    exact hown k (by omega)
  · refine or_iff_not_imp_left.mpr fun hempty n hn => ?_
    have hempty : r.devices = [] := not_not.mp hempty
    by_contra hlt
    -- without a device of the kernel the places are the numbers
    rw [hempty, hzero hempty, List.length_nil] at hcurrent
    have hn0 := hnonneg n hn
    have hplace : n.toNat < (after w r ops).count := by omega
    have hindex := after_own w ops (r := r) (k := n.toNat) (by rw [hempty]; exact Nat.zero_le _)
      hplace
    rw [hempty, hzero hempty, List.length_nil] at hindex
    have hfound := hown n.toNat hplace
    rw [hindex, show (0 : Int) + ((n.toNat - 0 : Nat) : Int) = n by omega,
      hnone n hn (by rw [hempty]; exact List.not_mem_nil)] at hfound
    cases hfound
  · refine List.find?_eq_none.mpr fun k hk => ?_
    have hk : k < (after w r ops).count := List.mem_range.mp hk
    rw [decide_eq_true_eq]
    rcases Nat.lt_or_ge k r.devices.length with hkernel | hle
    · rw [(after_kernel w ops (List.getElem?_eq_getElem hkernel)).1]
      rintro rfl
      exact hunread (List.mem_map_of_mem (List.getElem_mem hkernel))
    · rw [after_own w ops hle hk]
      rcases hcases with hsome | hhigh
      · have := habove hsome n hn
        omega
      · -- the places behind those of the kernel are below the next number
        have := hhigh n hn
        omega

end Numbers

/-! ## Names -/

/-- The device is found by the name. -/
def HasName (d : Cdev δ) (name : String) : Prop := d.typeStr = name ∨ d.aliasStr = name

theorem search_eq_none {w : World δ} {name : String} :
    w.searchCdev name = none ↔ ∀ k < w.cdevCount, ¬ HasName (w.cdevs k) name := by
  unfold World.searchCdev HasName
  rw [List.find?_eq_none]
  simp

/-- A name that has a device keeps it. -/
theorem Grew.search (h : Grew Cdev.SameId s s') {name : String} {k : Nat}
    (hfound : s.world.searchCdev name = some k) : s'.world.searchCdev name = some k := by
  refine find_range_grow hfound h.count fun i hi => ?_
  have hsame := h.kept i hi
  rw [hsame.typeStr, hsame.aliasStr]

/-- A new name is that of the device that is added with it. -/
theorem search_add {name : String} (hnone : s.world.searchCdev name = none) (path : String)
    {d : Cdev δ} (hname : HasName d name) :
    (s.add path (some d)).world.searchCdev name = some s.count := by
  have hnew : (s.add path (some d)).world.cdevs s.count = { d with index := s.currentCdevIndex } :=
    cdevs_push_new _ path d
  unfold World.searchCdev
  rw [List.find?_range_eq_some]
  refine ⟨?_, List.mem_range.mpr (Nat.lt_succ_self _), fun j hj => ?_⟩
  · rw [hnew]
    simpa [HasName] using hname
  · have hold : (s.add path (some d)).world.cdevs j = s.world.cdevs j :=
      cdevs_push_old _ path d hj
    have hother := search_eq_none.mp hnone j hj
    rw [hold]
    simpa [HasName] using hother

/-- Before the power limits are added, the processor has no device. -/
theorem kernel_without_power {w : World δ} {r : DeviceReads δ} {name : String}
    (hkernel : ∀ p ∈ r.devices, ¬ HasName p.2 name) :
    ((empty w).thdReadDefaultCoolingDevices r.entries).world.searchCdev name = none := by
  obtain ⟨hcount, hdevices⟩ := kernel_devices w r
  refine search_eq_none.mpr fun k hk => ?_
  have hlt : k < r.devices.length := by
    rw [← hcount]
    exact hk
  rw [hdevices k _ _ (List.getElem?_eq_getElem hlt)]
  exact hkernel _ (List.getElem_mem hlt)

/-- A class of the daemon with a new name has it. -/
theorem search_add_class {name typeStr : String} (hnone : s.world.searchCdev name = none)
    (f : FoundCdev δ) :
    (s.addClass typeStr name (some f)).world.searchCdev name = some s.count ∧
      ((s.addClass typeStr name (some f)).world.cdevs s.count).typeStr = typeStr := by
  refine ⟨search_add hnone f.path (.inr rfl), ?_⟩
  show ((s.push s.currentCdevIndex f.path _).world.cdevs s.count).typeStr = typeStr
  rw [cdevs_push_new]

/-- The device in registers gives its name away. -/
theorem search_without_alias (hnone : s.world.searchCdev "B0D4" = none) (f : FoundCdev δ)
    {F : Cdev δ → Cdev δ}
    (hF : ∀ d, (F d).typeStr = d.typeStr ∧ (F d).aliasStr = "") :
    ((s.addClass "rapl_controller" "B0D4" (some f)).modify s.count F).world.searchCdev "B0D4" =
      none := by
  refine search_eq_none.mpr fun k hk => ?_
  have hk : k < s.count + 1 := hk
  rw [cdevs_modify]
  split
  · have htype : ((s.addClass "rapl_controller" "B0D4" (some f)).world.cdevs s.count).typeStr =
        "rapl_controller" := (search_add_class hnone f).2
    rintro (h | h)
    · rw [(hF _).1, htype] at h
      exact absurd h (by decide)
    · rw [(hF _).2] at h
      exact absurd h (by decide)
  · have hlt : k < s.count := by omega
    have hold : (s.addClass "rapl_controller" "B0D4" (some f)).world.cdevs k = s.world.cdevs k :=
      cdevs_push_old s.currentCdevIndex f.path _ hlt
    rw [hold]
    exact search_eq_none.mp hnone k hlt

section Names

variable [ConfigCdev δ]

/-- The device that gets the settings of a configured device: the one that is there, or a new
one. -/
def configuredPlace (s : CdevStore δ) (c : CoolingDevConf) : Nat := (s.present c).getD s.count

/-- A configured device is found by its name from then on, but this is the device that had the name
before, if there was one. So the settings are those of the device with the name exactly if the name
was new, or the configuration has no path or the path of that device; else they are given to a
device that is hidden for good. -/
theorem configured_device_named (s : CdevStore δ) (files : GenFiles δ) (c : CoolingDevConf)
    (hfile : s.present c = none → files c.pathStr ≠ none) (ops : List (CdevOp δ)) :
    (run step (s.addReplaceCdev files c) ops).world.searchCdev c.typeString =
        some ((s.world.searchCdev c.typeString).getD s.count) ∧
      ((run step (s.addReplaceCdev files c) ops).world.searchCdev c.typeString =
          some (s.configuredPlace c) ↔
        ∀ k, s.world.searchCdev c.typeString = some k →
          c.pathStr = "" ∨ c.pathStr = s.basePath k) := by
  have hgrew := (grew_add_replace files s c).trans (grew_run (s.addReplaceCdev files c) ops)
  cases hfound : s.world.searchCdev c.typeString with
  | some k =>
      have hkept := hgrew.search hfound
      refine ⟨hkept, ?_⟩
      have hlt : k < s.count :=
        List.mem_range.mp (List.mem_of_find?_eq_some hfound)
      rw [hkept]
      unfold configuredPlace present
      rw [hfound]
      by_cases hpath : c.pathStr = "" ∨ c.pathStr = s.basePath k
      · rw [Option.filter_some_pos (by simpa [or_iff_not_imp_left] using hpath)]
        refine iff_of_true rfl fun k' hk' => ?_
        obtain rfl := Option.some.inj hk'
        exact hpath
      · rw [Option.filter_some_neg (by simpa [or_iff_not_imp_left] using hpath)]
        refine iff_of_false (fun h => ?_) fun h => hpath (h k rfl)
        have heq : k = s.count := Option.some.inj h
        omega
  | none =>
      have hpresent : s.present c = none := by
        unfold present
        rw [hfound]
        rfl
      obtain ⟨d, hd⟩ := Option.ne_none_iff_exists'.mp (hfile hpresent)
      have hnew : (s.addReplaceCdev files c).world.searchCdev c.typeString = some s.count := by
        have hadded : s.addReplaceCdev files c =
            (s.add c.pathStr (some { d with typeStr := c.typeString, aliasStr := "" })).modify
              s.count (configure c) := by
          unfold addReplaceCdev addGenSysfs
          rw [hpresent, hd]
          rfl
        rw [hadded]
        exact (grew_modify _ _ .refl (configure_same c)).search
          (search_add hfound c.pathStr (.inl rfl))
      have hkept := (grew_run (s.addReplaceCdev files c) ops).search hnew
      refine ⟨hkept, ?_⟩
      unfold configuredPlace
      rw [hkept, hpresent]
      exact iff_of_true rfl fun k hk => nomatch hk

/-- The processor `B0D4` is throttled by the power limit in memory if that is asked for and can be
used, and else by the one in registers, whatever is added later. -/
theorem processor_power_limit (w : World δ) (r : DeviceReads δ) (ops : List (CdevOp δ))
    (hkernel : ∀ p ∈ r.devices, ¬ HasName p.2 "B0D4") (typeStr : String)
    (hlimit : (r.mmioWanted = true ∧ r.raplMmio.isSome ∧ typeStr = "rapl_controller_mmio") ∨
      (¬ (r.mmioWanted = true ∧ r.raplMmio.isSome) ∧ r.rapl.isSome ∧
        typeStr = "rapl_controller")) :
    ∃ k, (after w r ops).world.searchCdev "B0D4" = some k ∧
      ((after w r ops).world.cdevs k).typeStr = typeStr := by
  have hgrew := (grew_read_other ((empty w).readPowerLimits r) r).trans (grew_run _ ops)
  suffices hpower : ∃ k, ((empty w).readPowerLimits r).world.searchCdev "B0D4" = some k ∧
      (((empty w).readPowerLimits r).world.cdevs k).typeStr = typeStr by
    obtain ⟨k, hfound, htype⟩ := hpower
    have hlt : k < ((empty w).readPowerLimits r).count :=
      List.mem_range.mp (List.mem_of_find?_eq_some hfound)
    exact ⟨k, hgrew.search hfound, (hgrew.kept k hlt).typeStr.trans htype⟩
  have hnone := kernel_without_power (w := w) hkernel
  unfold readPowerLimits
  dsimp only
  rcases hlimit with ⟨hwanted, hmmio, rfl⟩ | ⟨hnot, hrapl, rfl⟩
  · obtain ⟨f, hf⟩ := Option.isSome_iff_exists.mp hmmio
    rw [if_pos hwanted, hf]
    cases hrapl : r.rapl with
    | none => exact ⟨_, search_add_class hnone f⟩
    | some g =>
        refine ⟨_, search_add_class (search_without_alias hnone g fun d => ?_) f⟩
        dsimp only
        split
        · exact ⟨AdaptiveCdev.type_str_eq _ _, AdaptiveCdev.alias_str_eq _ _⟩
        · exact ⟨rfl, rfl⟩
  · obtain ⟨g, hg⟩ := Option.isSome_iff_exists.mp hrapl
    have hlimits : (if r.mmioWanted = true then
        (((empty w).thdReadDefaultCoolingDevices r.entries).addClass "rapl_controller" "B0D4"
          r.rapl).addRaplMmio (r.rapl.map fun _ =>
            ((empty w).thdReadDefaultCoolingDevices r.entries).count) r.adaptiveMode r.raplMmio
      else ((empty w).thdReadDefaultCoolingDevices r.entries).addClass "rapl_controller" "B0D4"
        r.rapl) = ((empty w).thdReadDefaultCoolingDevices r.entries).addClass "rapl_controller"
          "B0D4" (some g) := by
      rw [hg]
      split
      · rename_i hwanted
        have hmmio : r.raplMmio = none := by
          have hno : ¬ r.raplMmio.isSome := fun h => hnot ⟨hwanted, h⟩
          simpa using hno
        rw [hmmio]
        rfl
      · rfl
    rw [hlimits]
    exact ⟨_, search_add_class hnone g⟩

end Names

/-! ## A laptop -/

/-- A device with a type. -/
def plainCdev (typeStr : String) : Cdev GenSysfs :=
  { Cdev.init 0 ⟨"", []⟩ with typeStr := typeStr }

/-- No devices, and nothing else. -/
def bareWorld : World GenSysfs where
  cdevs _ := plainCdev ""
  cdevCount := 0
  sensors := []
  pollIntervalSec := 0
  ignoreCritical := false
  clock _ := 0
  ticks := 0
  events := []

/-- A fan and a device that cannot be read, and both power limits. -/
def laptopReads : DeviceReads GenSysfs where
  entries := [⟨"cooling_device1", some (plainCdev "Fan")⟩, ⟨"thermal_zone0", none⟩,
    ⟨"cooling_device0", none⟩]
  rapl := some ⟨plainCdev "", "/sys/devices/virtual/powercap/intel-rapl/intel-rapl:0/"⟩
  mmioWanted := true
  raplMmio := some ⟨plainCdev "",
    "/sys/devices/virtual/powercap/intel-rapl-mmio/intel-rapl-mmio:0/"⟩
  adaptiveMode := true
  pState := none
  cpufreq := none
  raplDram := none
  backlight := none
  files path := if "/sys".toList.isPrefixOf path.toList then some (plainCdev "") else none
  coolingDevs := []

/-- The configuration has another file for the fan. -/
def fanConf : CoolingDevConf :=
  { defCoolingDevice 100 "Fan" with pathStr := "/sys/class/hwmon/hwmon0/pwm1" }

/-- The number 0 means no device. -/
theorem laptop_devices_found :
    (∀ k < (after bareWorld laptopReads []).count,
      (after bareWorld laptopReads []).world.thdGetCdevAtIndex
        ((after bareWorld laptopReads []).world.cdevs k).index = some k) ∧
      (∀ k n d, laptopReads.devices[k]? = some (n, d) →
        (after bareWorld laptopReads []).world.thdGetCdevAtIndex n = some k ∧
          ((after bareWorld laptopReads []).world.cdevs k).typeStr = d.typeStr) ∧
      ((∀ n ∈ laptopReads.numbers, n ∉ laptopReads.devices.map Prod.fst →
          (after bareWorld laptopReads []).world.thdGetCdevAtIndex n = none) ↔
        laptopReads.devices ≠ [] ∨ ∀ n ∈ laptopReads.numbers,
          (after bareWorld laptopReads []).currentCdevIndex ≤ n) := by
  have hnumbers : laptopReads.numbers = [1, 0] := by decide +kernel
  refine kernel_devices_found bareWorld laptopReads [] ?_ ?_
  · rw [hnumbers]
    decide
  · rw [hnumbers]
    decide

/-- The fan of the configuration is a third device and not the one that its name finds. -/
theorem fan_hidden :
    (run step ((after bareWorld laptopReads []).addReplaceCdev laptopReads.files fanConf)
        []).world.searchCdev fanConf.typeString =
      some (((after bareWorld laptopReads []).world.searchCdev fanConf.typeString).getD
        (after bareWorld laptopReads []).count) ∧
    ((run step ((after bareWorld laptopReads []).addReplaceCdev laptopReads.files fanConf)
        []).world.searchCdev fanConf.typeString =
        some ((after bareWorld laptopReads []).configuredPlace fanConf) ↔
      ∀ k, (after bareWorld laptopReads []).world.searchCdev fanConf.typeString = some k →
        fanConf.pathStr = "" ∨ fanConf.pathStr = (after bareWorld laptopReads []).basePath k) := by
  refine configured_device_named (after bareWorld laptopReads []) laptopReads.files fanConf ?_ []
  intro _
  have hpath : "/sys".toList.isPrefixOf fanConf.pathStr.toList = true := by decide
  show (if "/sys".toList.isPrefixOf fanConf.pathStr.toList then some (plainCdev "") else none) ≠
    none
  rw [if_pos hpath]
  exact Option.some_ne_none _

/-- The power limit in memory has the name of the processor. -/
theorem laptop_power_limit : ∃ k,
    (after bareWorld laptopReads []).world.searchCdev "B0D4" = some k ∧
      ((after bareWorld laptopReads []).world.cdevs k).typeStr = "rapl_controller_mmio" := by
  refine processor_power_limit bareWorld laptopReads [] (fun p hp => ?_) _ (.inl ⟨rfl, rfl, rfl⟩)
  obtain ⟨e, he, hloaded⟩ := List.mem_filterMap.mp hp
  obtain ⟨n, hn, hdevice⟩ := Option.bind_eq_some_iff.mp hloaded
  obtain ⟨d, hd, rfl⟩ := Option.map_eq_some_iff.mp hdevice
  simp only [laptopReads, List.mem_cons, List.not_mem_nil, or_false] at he
  rcases he with rfl | rfl | rfl
  · obtain rfl := Option.some.inj hd
    show ¬ HasName (plainCdev "Fan") "B0D4"
    unfold HasName
    decide
  · cases hd
  · cases hd

end CdevStore

end Thermald
