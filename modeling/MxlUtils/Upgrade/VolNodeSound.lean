import MxlUtils.Upgrade.VolNodeExact

/- What the functions may do to a set of volumes, whatever the commands answer. Each of
   them ends by making the named volume anew and writing to the node that it then finds;
   the volumes with other names are the same all the way, unless that node is theirs. -/
namespace VolNode
open Effect ShellText Fallible

variable {Y : System} {call : Call} {name image fileSize : Word} {size : Option Word} {vols vols' : List Volume}
  {v : Volume} {c : Nat}

/-! ## One command after the other -/

/-- The named volume is removed, or nothing is done. -/
def Removed (name : Word) (vols vols' : List Volume) : Prop :=
  vols' = vols ∨ (∃ v ∈ vols, v.name = name) ∧ vols' = others name vols

/-- It is made, or nothing is done. -/
def Created (name : Word) (vols vols' : List Volume) : Prop :=
  vols' = vols ∨ (∀ v ∈ vols, v.name ≠ name) ∧ ∃ id size, (∀ v ∈ vols, v.id ≠ id) ∧ vols' = vols ++ [⟨id, name, size, []⟩]

def Updated (Y : System) (operands : List Word) (size : Option Word) (vols : List Volume) (c : Nat) (vols' : List Volume) : Prop :=
  commands Y vols ⟨.ubiupdatevol operands size, c⟩ vols'

theorem leads_command {o : UbiOp} {a : ubiSig.Ret o} : Leads (commands Y) (command o) vols a vols' ↔ commands Y vols ⟨o, a⟩ vols' :=
  leads_always

theorem leads_removeVol : (∃ c, Leads (commands Y) (removeVol name) vols c vols') ↔ Removed name vols vols' := by
  constructor
  · rintro ⟨c, h⟩
    have hcommand : if c = 0 then _ else _ := (leads_command).mp h
    split at hcommand
    · exact .inr hcommand
    · exact .inl hcommand
  · rintro (h | h)
    · exact ⟨(1 : Nat), (leads_command).mpr h⟩
    · exact ⟨(0 : Nat), (leads_command).mpr h⟩

/-- Whatever the nodes are made, the volumes are not changed. -/
theorem leads_createVol : (∃ c, Leads (commands Y) (createVol name fileSize) vols c vols') ↔ Created name vols vols' := by
  have hnodes : ∀ c m, Leads (commands Y) (Sh.orElse (command .createUbiNodes) Sh.nothing) m c vols' → vols' = m := by
    intro c m h
    obtain ⟨a, m', ha, h⟩ := (leads_bind).mp h
    have hm' : m' = m := (leads_command).mp ha
    rw [leads_ite] at h
    split at h
    · rw [(leads_pure.mp h).2, hm']
    · rw [(leads_pure.mp h).2, hm']
  constructor
  · rintro ⟨c, h⟩
    obtain ⟨a, m, ha, h⟩ := (leads_bind).mp h
    have hcommand : if a = 0 then _ else _ := (leads_command).mp ha
    rw [leads_ite] at h
    by_cases hzero : a = 0
    · rw [if_pos hzero] at hcommand h
      rw [hnodes c m h]
      exact .inr hcommand
    · rw [if_neg hzero] at hcommand h
      rw [(leads_pure.mp h).2]
      exact .inl hcommand
  · rintro (h | h)
    · refine ⟨(1 : Nat), (leads_bind).mpr ⟨(1 : Nat), vols', (leads_command).mpr h, ?_⟩⟩
      exact (leads_pure).mpr ⟨rfl, rfl⟩
    · refine ⟨(0 : Nat), (leads_bind).mpr ⟨(0 : Nat), vols', (leads_command).mpr h, ?_⟩⟩
      refine (leads_bind).mpr ⟨(0 : Nat), vols', (leads_command).mpr rfl, ?_⟩
      exact (leads_pure).mpr ⟨rfl, rfl⟩

theorem leads_findNode {n : List Char} :
    Leads (commands Y) (findNode Y name) vols n vols' ↔ n = Y.volNode name (Y.listing vols) ∧ vols' = vols := by
  constructor
  · intro h
    obtain ⟨files, m, hfiles, h⟩ := (leads_bind).mp h
    obtain ⟨rfl, rfl⟩ := (leads_command).mp hfiles
    exact (leads_pure).mp h
  · rintro ⟨rfl, rfl⟩
    exact (leads_bind).mpr ⟨Y.listing vols', vols', (leads_command).mpr ⟨rfl, rfl⟩, (leads_pure).mpr ⟨rfl, rfl⟩⟩

/-- What the last lines of a call may do. -/
def Rewritten (Y : System) (call : Call) (vols : List Volume) (c : Nat) (vols' : List Volume) : Prop :=
  ∃ bare made, Removed call.name vols bare ∧ Created call.name bare made ∧
    Updated Y (Y.operands call made) call.size made c vols'

theorem leads_rewrite :
    Leads (commands Y) (rewrite Y call.name fileSize call.operand call.size) vols c vols' ↔ Rewritten Y call vols c vols' := by
  constructor
  · intro h
    obtain ⟨a, bare, hremove, h⟩ := (leads_bind).mp h
    obtain ⟨b, made, hcreate, h⟩ := (leads_bind).mp h
    obtain ⟨n, m, hfind, h⟩ := (leads_bind).mp h
    obtain ⟨rfl, rfl⟩ := (leads_findNode).mp hfind
    exact ⟨bare, m, (leads_removeVol).mp ⟨a, hremove⟩, (leads_createVol).mp ⟨b, hcreate⟩, (leads_command).mp h⟩
  · rintro ⟨bare, made, hremove, hcreate, hupdate⟩
    obtain ⟨a, hremove⟩ := (@leads_removeVol Y _ _ _).mpr hremove
    obtain ⟨b, hcreate⟩ := (@leads_createVol Y _ fileSize _ _).mpr hcreate
    refine (leads_bind).mpr ⟨a, bare, hremove, (leads_bind).mpr ⟨b, made, hcreate, ?_⟩⟩
    exact (leads_bind).mpr ⟨_, made, (leads_findNode).mpr ⟨rfl, rfl⟩, (leads_command).mpr hupdate⟩

/-- What a call may do: write at once, if it is write_vol, or make the volume anew. -/
def Written (Y : System) (call : Call) (vols : List Volume) (c : Nat) (vols' : List Volume) : Prop :=
  Rewritten Y call vols c vols' ∨ ∃ a m, Updated Y (Y.operands call vols) call.size vols a m ∧
    (a = 0 ∧ c = 0 ∧ vols' = m ∨ a ≠ 0 ∧ Rewritten Y call m c vols')

theorem leads_test {b : Bool} {x : Sh ubiSig Nat} :
    Leads (commands Y) (Sh.andThen (Sh.test b) x) vols c vols' ↔
      if b then Leads (commands Y) x vols c vols' else c = 1 ∧ vols' = vols := by
  cases b with
  | true => rfl
  | false => exact leads_pure

/-- The tests at the start of write_vol and write_vol_fit. -/
theorem leads_guarded {k : Word → Sh ubiSig Nat} :
    Leads (commands Y)
        ((Sh.test (name ≠ [] ∧ image ≠ [])).andThen do
          let isFile ← command (.isFile image)
          (Sh.test isFile).andThen do
            let fileSize ← command (.fileSize image)
            k fileSize) vols c vols' ↔
      if name ≠ [] ∧ image ≠ [] ∧ Y.isFile image = true then ∃ fileSize, Leads (commands Y) (k fileSize) vols c vols'
      else c = 1 ∧ vols' = vols := by
  have hfile : ∀ {x : Bool → Sh ubiSig Nat}, Leads (commands Y) (command (.isFile image) >>= x) vols c vols' ↔
      Leads (commands Y) (x (Y.isFile image)) vols c vols' := by
    intro x
    constructor
    · intro h
      obtain ⟨b, m, hb, h⟩ := (leads_bind).mp h
      obtain ⟨rfl, hm⟩ := (leads_command).mp hb
      rwa [hm] at h
    · intro h
      exact (leads_bind).mpr ⟨Y.isFile image, vols, (leads_command).mpr ⟨rfl, rfl⟩, h⟩
  have hsize : Leads (commands Y) (command (.fileSize image) >>= k) vols c vols' ↔
      ∃ fileSize, Leads (commands Y) (k fileSize) vols c vols' := by
    constructor
    · intro h
      obtain ⟨s, m, hs, h⟩ := (leads_bind).mp h
      have hm : m = vols := (leads_command).mp hs
      exact ⟨s, by rwa [hm] at h⟩
    · rintro ⟨s, h⟩
      exact (leads_bind).mpr ⟨s, vols, (leads_command).mpr rfl, h⟩
  rw [leads_test]
  by_cases hargs : name ≠ [] ∧ image ≠ []
  · rw [if_pos (by simpa using hargs), hfile, leads_test, hsize]
    simp [hargs.1, hargs.2]
  · have hnot : ¬(name ≠ [] ∧ image ≠ [] ∧ Y.isFile image = true) := fun h => hargs ⟨h.1, h.2.1⟩
    rw [if_neg (by simpa using hargs), if_neg hnot]

theorem leads_refused (h : ¬call.Accepted Y) (hleads : Leads (commands Y) (call.run Y) vols c vols') : c = 1 ∧ vols' = vols := by
  cases call with
  | write name image =>
    have hguarded := (leads_guarded).mp hleads
    have hnot : ¬(name ≠ [] ∧ image ≠ [] ∧ Y.isFile image = true) := h
    rwa [if_neg hnot] at hguarded
  | fit name image =>
    have hguarded := (leads_guarded).mp hleads
    have hnot : ¬(name ≠ [] ∧ image ≠ [] ∧ Y.isFile image = true) := h
    rwa [if_neg hnot] at hguarded
  | stdin name size =>
    have htest := (leads_test).mp hleads
    have hnot : ¬(name ≠ [] ∧ size ≠ []) := h
    rwa [if_neg (by simpa using hnot)] at htest

/-- After the lookup, write_vol writes to the node, if there is one, and makes the volume anew if that
fails. -/
theorem leads_write : Leads (commands Y)
      (do
        let volNode ← findNode Y name
        if volNode ≠ [] then do
          let c ← ubiupdatevol (Y.nodeWords volNode ++ [image]) none
          if c ≠ 0 then rewrite Y name fileSize image none else Sh.nothing
        else rewrite Y name fileSize image none) vols c vols' ↔
    if Y.volNode name (Y.listing vols) ≠ [] then
      ∃ a m, Updated Y (Y.operands (.write name image) vols) none vols a m ∧
        if a ≠ 0 then Rewritten Y (.write name image) m c vols' else c = 0 ∧ vols' = m
    else Rewritten Y (.write name image) vols c vols' := by
  have hrewrite : ∀ m, Leads (commands Y) (rewrite Y name fileSize image none) m c vols' ↔
      Rewritten Y (.write name image) m c vols' := fun m => @leads_rewrite Y (.write name image) fileSize m vols' c
  have hfind : ∀ {x : List Char → Sh ubiSig Nat}, Leads (commands Y) (findNode Y name >>= x) vols c vols' ↔
      Leads (commands Y) (x (Y.volNode name (Y.listing vols))) vols c vols' := by
    intro x
    constructor
    · intro h
      obtain ⟨n, m, hn, h⟩ := (leads_bind).mp h
      obtain ⟨rfl, hm⟩ := (leads_findNode).mp hn
      rwa [hm] at h
    · intro h
      exact (leads_bind).mpr ⟨_, vols, (leads_findNode).mpr ⟨rfl, rfl⟩, h⟩
  rw [hfind]
  by_cases hnode : Y.volNode name (Y.listing vols) ≠ []
  · rw [if_pos hnode, if_pos hnode, leads_bind]
    constructor
    · rintro ⟨a, m, ha, h⟩
      refine ⟨a, m, (leads_command).mp ha, ?_⟩
      rw [leads_ite, hrewrite] at h
      by_cases hzero : a ≠ 0
      · rwa [if_pos hzero] at h ⊢
      · rw [if_neg hzero] at h ⊢
        exact (leads_pure).mp h
    · rintro ⟨a, m, ha, h⟩
      refine ⟨a, m, (leads_command).mpr ha, ?_⟩
      rw [leads_ite, hrewrite]
      by_cases hzero : a ≠ 0
      · rwa [if_pos hzero] at h ⊢
      · rw [if_neg hzero] at h ⊢
        exact (leads_pure).mpr h
  · rw [if_neg hnode, if_neg hnode, hrewrite]

theorem leads_written (h : call.Accepted Y) (hleads : Leads (commands Y) (call.run Y) vols c vols') : Written Y call vols c vols' := by
  cases call with
  | write name image =>
    have hguarded := (leads_guarded).mp hleads
    have haccepted : name ≠ [] ∧ image ≠ [] ∧ Y.isFile image = true := h
    rw [if_pos haccepted] at hguarded
    obtain ⟨fileSize, hwrite⟩ := hguarded
    rw [leads_write] at hwrite
    split at hwrite
    · obtain ⟨a, m, ha, hrest⟩ := hwrite
      refine .inr ⟨a, m, ha, ?_⟩
      split at hrest
      · rename_i hfailed
        exact .inr ⟨hfailed, hrest⟩
      · rename_i hzero
        exact .inl ⟨by simpa using hzero, hrest⟩
    · exact .inl hwrite
  | fit name image =>
    have hguarded := (leads_guarded).mp hleads
    have haccepted : name ≠ [] ∧ image ≠ [] ∧ Y.isFile image = true := h
    rw [if_pos haccepted] at hguarded
    obtain ⟨fileSize, hrewrite⟩ := hguarded
    exact .inl (leads_rewrite.mp hrewrite)
  | stdin name size =>
    have htest := (leads_test).mp hleads
    rw [if_pos (by simpa [Call.Accepted] using h)] at htest
    exact .inl (leads_rewrite.mp htest)

theorem setData_self (hvalid : Valid vols) (hv : v ∈ vols) : setData v.id v.data vols = vols := by
  rw [setData]
  conv_rhs => rw [← List.map_id vols]
  apply List.map_congr_left
  intro u hu
  by_cases hid : u.id = v.id
  · rw [if_pos hid, hvalid.eq_of_id hu hv hid]
    rfl
  · rw [if_neg hid]
    rfl

/-- An update may fail at once. -/
theorem updated_failed (hvalid : Valid vols) (operands : List Word) (size : Option Word) :
    Updated Y operands size vols (1 : Nat) vols := by
  rw [Updated, commands]
  cases htarget : target vols operands with
  | none => exact ⟨Nat.one_ne_zero, rfl⟩
  | some v =>
    have hv : v ∈ vols := by
      cases operands with
      | nil => cases htarget
      | cons w ws => exact (target_cons_eq htarget).1
    exact ⟨v.data, (setData_self hvalid hv).symm, fun h => absurd h Nat.one_ne_zero⟩

/-- Every call may make the volume anew. -/
theorem leads_of_rewritten (hvalid : Valid vols) (h : call.Accepted Y) (hrewritten : Rewritten Y call vols c vols') :
    Leads (commands Y) (call.run Y) vols c vols' := by
  cases call with
  | write name image =>
    have haccepted : name ≠ [] ∧ image ≠ [] ∧ Y.isFile image = true := h
    refine (leads_guarded).mpr ?_
    rw [if_pos haccepted]
    refine ⟨[], (leads_write).mpr ?_⟩
    split
    · exact ⟨(1 : Nat), vols, updated_failed hvalid _ _, by rwa [if_pos Nat.one_ne_zero]⟩
    · exact hrewritten
  | fit name image =>
    have haccepted : name ≠ [] ∧ image ≠ [] ∧ Y.isFile image = true := h
    refine (leads_guarded).mpr ?_
    rw [if_pos haccepted]
    exact ⟨[], (leads_rewrite).mpr hrewritten⟩
  | stdin name size =>
    refine (leads_test).mpr ?_
    rw [if_pos (by simpa [Call.Accepted] using h)]
    exact (leads_rewrite).mpr hrewritten

/-! ## Where no other volume is found -/

theorem others_others : others name (others name vols) = others name vols := by simp [others]

theorem Meets.congr (hmeets : Meets Y call vols) (h : others call.name vols' = others call.name vols) : Meets Y call vols' :=
  ⟨by rw [h]; exact hmeets.words, by rw [h]; exact hmeets.sole⟩

theorem valid_others (hvalid : Valid vols) (name : Word) : Valid (others name vols) :=
  ⟨hvalid.ids.sublist (List.filter_sublist.map _), hvalid.names.sublist (List.filter_sublist.map _),
    fun v hv => hvalid.lines v (List.mem_of_mem_filter hv)⟩

theorem Removed.keeps (h : Removed name vols vols') (hvalid : Valid vols) :
    Valid vols' ∧ others name vols' = others name vols := by
  rcases h with rfl | ⟨-, rfl⟩
  · exact ⟨hvalid, rfl⟩
  · exact ⟨valid_others hvalid name, others_others⟩

theorem Valid.append (hvalid : Valid vols) (hline : '\n' ∉ v.name) (hname : ∀ u ∈ vols, u.name ≠ v.name)
    (hid : ∀ u ∈ vols, u.id ≠ v.id) : Valid (vols ++ [v]) := by
  refine ⟨?_, ?_, fun u hu => ?_⟩
  · rw [List.map_append, List.map_singleton, List.nodup_append']
    simpa using ⟨hvalid.ids, hid⟩
  · rw [List.map_append, List.map_singleton, List.nodup_append']
    simpa using ⟨hvalid.names, hname⟩
  · rcases List.mem_append.mp hu with hu | hu
    · exact hvalid.lines u hu
    · rwa [List.mem_singleton.mp hu]

theorem Created.keeps (h : Created name vols vols') (hline : '\n' ∉ name) (hvalid : Valid vols) :
    Valid vols' ∧ others name vols' = others name vols := by
  rcases h with rfl | ⟨hname, id, size, hid, rfl⟩
  · exact ⟨hvalid, rfl⟩
  · exact ⟨hvalid.append hline hname hid, by simp [others]⟩

/-! ### A volume that is written -/

theorem map_setData {β : Type} {f : Volume → β} (hf : ∀ v data, f { v with data := data } = f v) (id : Nat) (data : List UInt8) :
    (setData id data vols).map f = vols.map f := by
  rw [setData, List.map_map]
  apply List.map_congr_left
  intro v _
  rw [Function.comp_apply]
  split
  · exact hf v data
  · rfl

theorem mem_setData {id : Nat} {data : List UInt8} (h : v ∈ setData id data vols) :
    ∃ u ∈ vols, v.name = u.name ∧ v.id = u.id ∧ (u.id = id → v.data = data) := by
  obtain ⟨u, hu, rfl⟩ := List.mem_map.mp h
  refine ⟨u, hu, ?_⟩
  split
  · exact ⟨rfl, rfl, fun _ => rfl⟩
  · rename_i hid
    exact ⟨rfl, rfl, fun h => absurd h hid⟩

theorem valid_setData (hvalid : Valid vols) (id : Nat) (data : List UInt8) : Valid (setData id data vols) := by
  refine ⟨?_, ?_, fun v hv => ?_⟩
  · rw [map_setData fun v data => rfl]
    exact hvalid.ids
  · rw [map_setData fun v data => rfl]
    exact hvalid.names
  · obtain ⟨u, hu, hname, -⟩ := mem_setData hv
    rw [hname]
    exact hvalid.lines u hu

/-- The others are as they were, if it is the named one. -/
theorem others_setData (hvalid : Valid vols) (hv : v ∈ vols) (data : List UInt8) :
    others v.name (setData v.id data vols) = others v.name vols := by
  have hsame : ∀ u ∈ others v.name vols, (if u.id = v.id then { u with data := data } else u) = u := by
    intro u hu
    obtain ⟨hu, hname⟩ := (mem_others).mp hu
    have hid : u.id ≠ v.id := fun h => hname (by rw [hvalid.eq_of_id hu hv h])
    rw [if_neg hid]
  have hkeep : ∀ u : Volume, decide ((if u.id = v.id then { u with data := data } else u).name ≠ v.name) =
      decide (u.name ≠ v.name) := by
    intro u
    split <;> rfl
  calc others v.name (setData v.id data vols)
      = (others v.name vols).map fun u => if u.id = v.id then { u with data := data } else u := by
        rw [others, setData, List.filter_map, others]
        congr 2
        funext u
        exact hkeep u
    _ = others v.name vols := (List.map_congr_left hsame).trans (List.map_id _)

theorem mem_target {operands : List Word} (htarget : target vols operands = some v) : v ∈ vols := by
  cases operands with
  | nil => cases htarget
  | cons w ws => exact (target_cons_eq htarget).1

/-- A safe update leaves the others, and success is that of the named volume. -/
theorem updated_safe (hvalid : Valid vols) (hsafe : Y.Safe call vols)
    (h : Updated Y (Y.operands call vols) call.size vols c vols') :
    Valid vols' ∧ others call.name vols' = others call.name vols ∧
      (c = 0 → ∃ v ∈ vols', v.name = call.name ∧ v.data = Y.bytes call.operand call.size) := by
  rw [Updated, commands] at h
  cases htarget : target vols (Y.operands call vols) with
  | none =>
    rw [htarget] at h
    obtain ⟨hfailed, rfl⟩ := h
    exact ⟨hvalid, rfl, fun h => absurd h hfailed⟩
  | some v =>
    rw [htarget] at h
    obtain ⟨data, rfl, hdata⟩ := h
    obtain ⟨hname, hops⟩ := hsafe v htarget
    have hv := mem_target htarget
    refine ⟨valid_setData hvalid v.id data, ?_, fun hzero => ?_⟩
    · rw [← hname]
      exact others_setData hvalid hv data
    · refine ⟨{ v with data := data }, List.mem_map.mpr ⟨v, hv, if_pos rfl⟩, hname, hdata hzero call.operand hops⟩

theorem rewritten_safe (hvalid : Valid vols) (hline : '\n' ∉ call.name) (hmeets : Meets Y call vols)
    (h : Rewritten Y call vols c vols') :
    others call.name vols' = others call.name vols ∧
      (c = 0 → ∃ v ∈ vols', v.name = call.name ∧ v.data = Y.bytes call.operand call.size) := by
  obtain ⟨bare, made, hremoved, hcreated, hupdated⟩ := h
  obtain ⟨hbare, hothers⟩ := hremoved.keeps hvalid
  obtain ⟨hmade, hothers'⟩ := hcreated.keeps hline hbare
  have hsame := hothers'.trans hothers
  obtain ⟨-, hafter, hsuccess⟩ := updated_safe hmade (safe_of_meets hmade (hmeets.congr hsame)) hupdated
  exact ⟨hafter.trans hsame, hsuccess⟩

theorem written_safe (hvalid : Valid vols) (hline : '\n' ∉ call.name) (hmeets : Meets Y call vols)
    (h : Written Y call vols c vols') :
    others call.name vols' = others call.name vols ∧
      (c = 0 → ∃ v ∈ vols', v.name = call.name ∧ v.data = Y.bytes call.operand call.size) := by
  rcases h with h | ⟨a, m, hupdated, h⟩
  · exact rewritten_safe hvalid hline hmeets h
  · obtain ⟨hm, hothers, hsuccess⟩ := updated_safe hvalid (safe_of_meets hvalid hmeets) hupdated
    rcases h with ⟨rfl, -, rfl⟩ | ⟨-, h⟩
    · exact ⟨hothers, fun _ => hsuccess rfl⟩
    · obtain ⟨hafter, hsuccess⟩ := rewritten_safe hm hline (hmeets.congr hothers) h
      exact ⟨hafter.trans hothers, hsuccess⟩

/-! ## Where another one is found -/

theorem exists_fresh (vols : List Volume) : ∃ id, ∀ v ∈ vols, v.id < id := by
  induction vols with
  | nil => exact ⟨0, by simp⟩
  | cons v vols ih =>
    obtain ⟨id, hid⟩ := ih
    refine ⟨max id (v.id + 1), fun u hu => ?_⟩
    rcases List.mem_cons.mp hu with rfl | hu
    · omega
    · have hlt := hid u hu
      omega

theorem removed_others (name : Word) (vols : List Volume) : Removed name vols (others name vols) := by
  by_cases h : ∃ v ∈ vols, v.name = name
  · exact .inr ⟨h, rfl⟩
  · refine .inl (List.filter_eq_self.mpr fun v hv => ?_)
    simpa using fun hname => h ⟨v, hv, hname⟩

/-- The volumes after the named one was made anew. -/
def remade (name : Word) (id : Nat) (vols : List Volume) : List Volume := others name vols ++ [⟨id, name, 0, []⟩]

theorem rewritten_remade {id : Nat} (hid : ∀ v ∈ others call.name vols, v.id ≠ id)
    (h : Updated Y (Y.operands call (remade call.name id vols)) call.size (remade call.name id vols) c vols') :
    Rewritten Y call vols c vols' :=
  ⟨others call.name vols, remade call.name id vols, removed_others _ _,
    .inr ⟨fun _ hv => (mem_others.mp hv).2, id, 0, hid, rfl⟩, h⟩

theorem target_eq (hvalid : Valid vols) (hv : v ∈ vols) (ws : List Word) : target vols (devNode v.id :: ws) = some v := by
  cases h : target vols (devNode v.id :: ws) with
  | none =>
    have hnone : vols.find? (fun u => devNode u.id = devNode v.id) = none := h
    have hv' := List.find?_eq_none.mp hnone v hv
    simp at hv'
  | some u =>
    obtain ⟨hu, hnode⟩ := target_cons_eq h
    rw [hvalid.eq_of_id hv hu (devNode_inj hnode)]

/-- The volume of the first operand may be written, with an image or without success. -/
theorem updated_target {operands : List Word} (htarget : target vols operands = some v) (data : List UInt8)
    (hdata : c = 0 → ∀ image, operands ≠ [devNode v.id, image]) : Updated Y operands size vols c (setData v.id data vols) := by
  rw [Updated, commands, htarget]
  exact ⟨data, rfl, fun hzero image hops => absurd hops (hdata hzero image)⟩

theorem data_ne_append (data : List UInt8) : data ++ [0] ≠ data := by simp

theorem not_sound_of_other (hvalid : Valid vols) (hv : v ∈ vols) (hname : v.name ≠ call.name)
    (hothers : others call.name vols = others call.name vols') :
    others call.name (setData v.id (v.data ++ [0]) vols) ≠ others call.name vols' := by
  intro h
  have hmem : v ∈ others call.name (setData v.id (v.data ++ [0]) vols) := by
    rw [h, ← hothers]
    exact (mem_others).mpr ⟨hv, hname⟩
  obtain ⟨u, hu, -, hid, hdata⟩ := mem_setData (mem_others.mp hmem).1
  exact data_ne_append v.data (hdata hid.symm).symm

theorem not_sound_of_named {data : List UInt8} (hvalid : Valid vols) (hv : v ∈ vols) (hname : v.name = name) :
    ¬∃ u ∈ setData v.id (data ++ [0]) vols, u.name = name ∧ u.data = data := by
  rintro ⟨u, hu, huname, hudata⟩
  obtain ⟨w, hw, hwname, hid, hdata⟩ := mem_setData hu
  have hwv : w = v := hvalid.eq_of_name hw hv (by rw [← hwname, huname, hname])
  exact data_ne_append data ((hdata (by rw [hwv])).symm.trans hudata)

theorem others_remade {id : Nat} : others name (remade name id vols) = others name vols := by simp [others, remade]

theorem valid_remade {id : Nat} (hvalid : Valid vols) (hline : '\n' ∉ name) (hid : ∀ v ∈ others name vols, v.id ≠ id) :
    Valid (remade name id vols) :=
  (valid_others hvalid name).append hline (fun _ hu => (mem_others.mp hu).2) hid

/-- With another volume found, the call writes to it, or has success with more operands than it should. -/
theorem words_of_sound (hvalid : Valid vols) (hline : '\n' ∉ call.name) (haccepted : call.Accepted Y)
    (hsound : Sound Y call vols) : ∀ v ∈ others call.name vols, Y.grepWord call.name v.name = false := by
  intro o ho
  by_contra hgrep
  rw [Bool.not_eq_false] at hgrep
  obtain ⟨id, hid⟩ := exists_fresh (others call.name vols)
  have hfresh : ∀ v ∈ others call.name vols, v.id ≠ id := fun v hv => Nat.ne_of_lt (hid v hv)
  have hmade := valid_remade hvalid hline hfresh
  have hmem : o ∈ remade call.name id vols := List.mem_append_left _ ho
  have hlength : (Y.listing (remade call.name id vols)).length ≠ 1 := by
    have hpos := List.length_pos_of_mem ho
    rw [length_listing, remade, List.length_append, List.length_singleton]
    omega
  have hfound : key o ∈ Y.found call.name (Y.listing (remade call.name id vols)) :=
    List.mem_filter.mpr ⟨(mem_listing).mpr ⟨o, hmem, rfl⟩, hgrep⟩
  have hwords := @nodeWords_several Y call.name _ hlength hmade.listing_newline
  cases hcases : Y.found call.name (Y.listing (remade call.name id vols)) with
  | nil => simp [hcases] at hfound
  | cons f fs =>
    rw [hcases] at hwords hfound
    have hf : f ∈ Y.found call.name (Y.listing (remade call.name id vols)) := hcases ▸ List.mem_cons_self ..
    obtain ⟨u, hu, rfl⟩ := (mem_listing).mp (List.mem_of_mem_filter hf)
    have hops : Y.operands call (remade call.name id vols) =
        devNode u.id :: ((fs.map fun f => node f.1) ++ [call.operand]) := by
      rw [System.operands, hwords]
      rfl
    have htarget : target (remade call.name id vols) (Y.operands call (remade call.name id vols)) = some u := by
      rw [hops]
      exact target_eq hmade hu _
    by_cases hname : u.name = call.name
    · -- the named volume comes first, and the other is an operand more
      have hne : fs ≠ [] := by
        rintro rfl
        have hkey := List.mem_singleton.mp hfound
        have hoid : o.id = u.id := congrArg Prod.fst hkey
        exact (mem_others.mp ho).2 (by rw [hmade.eq_of_id hmem hu hoid, hname])
      have hmore : ∀ image, Y.operands call (remade call.name id vols) ≠ [devNode u.id, image] := by
        intro image heq
        rw [hops] at heq
        have hlen := congrArg List.length heq
        have hpos := List.length_pos_iff.mpr hne
        simp only [List.length_cons, List.length_append, List.length_map, List.length_nil] at hlen
        omega
      have hupdated := @updated_target Y call.size _ u 0 _ htarget (Y.bytes call.operand call.size ++ [0]) fun _ => hmore
      exact not_sound_of_named hmade hu hname (hsound.success _ (leads_of_rewritten hvalid haccepted (rewritten_remade hfresh hupdated)))
    · have hupdated := @updated_target Y call.size _ u 1 _ htarget (u.data ++ [0]) fun h => absurd h Nat.one_ne_zero
      exact not_sound_of_other hmade hu hname others_remade
        (hsound.others 1 _ (leads_of_rewritten hvalid haccepted (rewritten_remade hfresh hupdated)))

/-- With no other volume, the words of the name are operands too. -/
theorem sole_of_sound (hvalid : Valid vols) (hline : '\n' ∉ call.name) (haccepted : call.Accepted Y)
    (hsound : Sound Y call vols) (hothers : others call.name vols = []) {id : Nat}
    (hhead : (Y.soleWords call.name ++ [call.operand]).head? = some (devNode id)) : Y.soleWords call.name = [devNode id] := by
  by_contra hsole
  have hfresh : ∀ v ∈ others call.name vols, v.id ≠ id := by simp [hothers]
  have hmade := valid_remade hvalid hline hfresh
  have hremade : remade call.name id vols = [⟨id, call.name, 0, []⟩] := by rw [remade, hothers, List.nil_append]
  have hops : Y.operands call (remade call.name id vols) = Y.soleWords call.name ++ [call.operand] := by
    rw [System.operands, hremade, listing_one, key, volNode_one id 0, System.soleWords]
  have htarget : target (remade call.name id vols) (Y.operands call (remade call.name id vols)) =
      some ⟨id, call.name, 0, []⟩ := by
    obtain ⟨w, ws, hcons⟩ := List.exists_cons_of_ne_nil (List.append_ne_nil_of_right_ne_nil (Y.soleWords call.name)
      (List.cons_ne_nil call.operand []))
    have hw : w = devNode id := by
      rw [hcons] at hhead
      exact Option.some.inj hhead
    rw [hops, hcons, hw]
    exact @target_eq _ ⟨id, call.name, 0, []⟩ hmade (by rw [hremade]; exact List.mem_singleton_self _) ws
  have hmore : ∀ image, Y.operands call (remade call.name id vols) ≠ [devNode id, image] := by
    intro image heq
    rw [hops] at heq
    exact hsole (List.append_inj_left' (heq.trans (List.singleton_append (x := devNode id) (l := [image])).symm) rfl)
  have hupdated := @updated_target Y call.size _ _ 0 _ htarget (Y.bytes call.operand call.size ++ [0]) fun _ => hmore
  exact not_sound_of_named hmade (by rw [hremade]; exact List.mem_singleton_self _) rfl
    (hsound.success _ (leads_of_rewritten hvalid haccepted (rewritten_remade hfresh hupdated)))

/-- A call reaches the named volume and no other exactly if its arguments are refused, or grep finds no
other volume for the name. -/
theorem sound_iff (hvalid : Valid vols) (hline : '\n' ∉ call.name) :
    Sound Y call vols ↔ (call.Accepted Y → Meets Y call vols) := by
  constructor
  · intro hsound haccepted
    exact ⟨words_of_sound hvalid hline haccepted hsound,
      fun hothers _ hhead => sole_of_sound hvalid hline haccepted hsound hothers hhead⟩
  · intro hmeets
    by_cases haccepted : call.Accepted Y
    · have hsafe : ∀ {c vols'}, Leads (commands Y) (call.run Y) vols c vols' → _ :=
        fun h => written_safe hvalid hline (hmeets haccepted) (leads_written haccepted h)
      exact ⟨fun vols' h => (hsafe h).2 rfl, fun c vols' h => (hsafe h).1⟩
    · refine ⟨fun vols' h => ?_, fun c vols' h => ?_⟩
      · exact absurd (leads_refused haccepted h).1 Nat.zero_ne_one
      · rw [(leads_refused haccepted h).2]

/-- A system where every file is there and holds one byte. -/
def oneByte : System where
  shell := { glob := fun w => [w], echo := fun ws => joinWords ws ++ ['\n'] }
  grepSpecial pattern l := pattern.isPrefixOf l
  order l := l
  order_perm _ := .refl _
  isFile path := path ≠ []
  bytes _ _ := [1]

def kernel : Word := "kernel".toList
def kernelOld : Word := "kernel-old".toList
def rootfs : Word := "rootfs".toList
def imagePath : Word := "/tmp/image".toList

theorem sound_kernel : Sound oneByte (.write kernel imagePath) [⟨0, kernel, 1, []⟩, ⟨1, rootfs, 1, []⟩] := by
  have hvalid : Valid [⟨0, kernel, 1, []⟩, ⟨1, rootfs, 1, []⟩] := ⟨by decide, by decide, by decide⟩
  have hline : '\n' ∉ (Call.write kernel imagePath).name := by decide
  refine (sound_iff hvalid hline).mpr fun _ => ⟨by decide +kernel, fun hnone => ?_⟩
  have hsome : others kernel [⟨0, kernel, 1, []⟩, ⟨1, rootfs, 1, []⟩] ≠ [] := by decide
  exact absurd hnone hsome

/-- write_vol is done where the node that it finds takes the image. -/
theorem leads_write_found (h : (Call.write name image).Accepted Y) (hnode : Y.volNode name (Y.listing vols) ≠ [])
    (hupdated : Updated Y (Y.operands (.write name image) vols) none vols (0 : Nat) vols') :
    Leads (commands Y) ((Call.write name image).run Y) vols (0 : Nat) vols' := by
  have haccepted : name ≠ [] ∧ image ≠ [] ∧ Y.isFile image = true := h
  refine (leads_guarded).mpr ?_
  rw [if_pos haccepted]
  refine ⟨[], (leads_write).mpr ?_⟩
  rw [if_pos hnode]
  refine ⟨0, vols', hupdated, ?_⟩
  rw [if_neg (by simp)]
  exact ⟨rfl, rfl⟩

theorem updated_image (htarget : target vols [devNode v.id, image] = some v) :
    Updated Y [devNode v.id, image] size vols (0 : Nat) (setData v.id (Y.bytes image size) vols) := by
  have hdata : ∀ image', [devNode v.id, image] = [devNode v.id, image'] → Y.bytes image size = Y.bytes image' size := by
    intro image' h
    rw [(List.cons.inj (List.cons.inj h).2).1]
  rw [Updated, commands, htarget]
  exact ⟨_, rfl, fun _ => hdata⟩

def oldVolumes : List Volume := [⟨0, kernelOld, 1, []⟩, ⟨1, rootfs, 1, []⟩]

/-- A volume that has the name as a word in its own takes the image. -/
theorem kernelOld_written : ¬Sound oneByte (.write kernel imagePath) oldVolumes := by
  intro hsound
  have hnode : oneByte.volNode kernel (oneByte.listing oldVolumes) ≠ [] := by decide +kernel
  have hops : oneByte.operands (.write kernel imagePath) oldVolumes = [devNode 0, imagePath] := by decide +kernel
  have htarget : target oldVolumes [devNode 0, imagePath] = some ⟨0, kernelOld, 1, []⟩ := by decide +kernel
  have hupdated := @updated_image oneByte imagePath none oldVolumes ⟨0, kernelOld, 1, []⟩ htarget
  rw [← hops] at hupdated
  have haccepted : (Call.write kernel imagePath).Accepted oneByte := ⟨by decide, by decide, by decide⟩
  have hleads := @leads_write_found oneByte kernel imagePath oldVolumes (setData 0 [1] oldVolumes) haccepted hnode hupdated
  obtain ⟨v, hv, hname, -⟩ := hsound.success _ hleads
  -- no volume has the name
  obtain ⟨u, hu, hsame, -⟩ := mem_setData hv
  have hnone : ∀ u ∈ oldVolumes, u.name ≠ kernel := by decide
  exact hnone u hu (hsame.symm.trans hname)

end VolNode
