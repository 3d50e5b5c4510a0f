import Mathlib.Data.List.Nodup
import MxlUtils.Upgrade.VolNode

/- When the functions write the volume that they are called for. The words that stand for
   the node are those of the volumes grep finds, if there are several volumes, and the
   name itself if there is one. No command goes to another volume exactly if grep finds
   no other. -/
namespace VolNode
open Effect ShellText

variable {Y : System} {call : Call} {name w : Word} {vols vols' : List Volume} {v : Volume} {id i : Nat} {c : Nat}
  {files : List (Nat × Word)}

/-! ## Nodes -/

/-- No character of a node has a meaning for the shell, or ends a field of its path. -/
theorem mem_node {x : Char} (hx : x ∈ node i) : isSeparator x = false ∧ x ≠ '/' ∧ x ≠ '*' ∧ x ≠ '?' ∧ x ≠ '[' := by
  have hdevice : ∀ y ∈ ubiDevice, isSeparator y = false ∧ y ≠ '/' ∧ y ≠ '*' ∧ y ≠ '?' ∧ y ≠ '[' := by decide
  rcases List.mem_append.mp hx with hx | hx
  · exact hdevice x hx
  · have hdigit := isDigit_of_mem_toString hx
    refine ⟨?_, ?_, ?_, ?_, ?_⟩
    · rw [isSeparator, isBlank]
      refine Bool.eq_false_iff.mpr fun h => ?_
      simp only [Bool.or_eq_true, beq_iff_eq] at h
      rcases h with (rfl | rfl) | rfl <;> exact absurd hdigit (by decide)
    all_goals
      rintro rfl
      exact absurd hdigit (by decide)

theorem isWord_node (i : Nat) : IsWord (node i) := by
  refine ⟨fun h => ?_, fun x hx => (mem_node hx).1⟩
  have hu : 'u' ∈ node i := List.mem_append_left _ (by decide)
  rw [h] at hu
  cases hu

theorem node_inj {j : Nat} (h : node i = node j) : i = j := toString_toList_inj (List.append_cancel_left h)

theorem devNode_inj {j : Nat} (h : devNode i = devNode j) : i = j := node_inj (List.append_cancel_left h)

theorem expand_node (E : Shell) {p : Word} (hp : isPattern p = false) (i : Nat) : E.expand (p ++ node i) = [p ++ node i] := by
  have hnode : isPattern (node i) = false := by
    rw [isPattern, List.any_eq_false]
    intro x hx
    obtain ⟨-, -, hstar, hmark, hbracket⟩ := mem_node hx
    simp [hstar, hmark, hbracket]
  rw [Shell.expand, isPattern, List.any_append, ← isPattern, ← isPattern, hp, hnode]
  rfl

/-- The fifth field of what grep prints for a name, if it prints the file name before it. -/
theorem field_sysfsName (i : Nat) (l : Line) : field '/' 5 (sysfsName i ++ ':' :: l) = node i := by
  have hnode : '/' ∉ node i := fun h => (mem_node h).2.1 rfl
  have hdir : sysfsDir = [] ++ '/' :: ("sys".toList ++ '/' :: ("class".toList ++ '/' :: ("ubi".toList ++ ['/']))) := by decide
  have hfile : nameFile = '/' :: "name".toList := by decide
  have hpath : sysfsName i ++ ':' :: l = [] ++ '/' :: ("sys".toList ++ '/' :: ("class".toList ++ '/' :: ("ubi".toList ++
      '/' :: (node i ++ '/' :: ("name".toList ++ ':' :: l))))) := by
    rw [sysfsName, hdir, hfile]
    simp only [List.append_assoc, List.cons_append, List.nil_append]
  rw [field, hpath, if_pos (by simp), List.splitOn_append_cons_self_of_not_mem (by simp),
    List.splitOn_append_cons_self_of_not_mem (by decide), List.splitOn_append_cons_self_of_not_mem (by decide),
    List.splitOn_append_cons_self_of_not_mem (by decide), List.splitOn_append_cons_self_of_not_mem hnode]
  rfl

/-! ## What is found -/

def System.found (Y : System) (name : Word) (files : List (Nat × Word)) : List (Nat × Word) :=
  files.filter fun f => Y.grepWord name f.2

/-- The node words where nothing is found. -/
theorem nodeWords_nil : Y.nodeWords [] = [devDir] := by
  rw [System.nodeWords, List.append_nil]
  exact unquoted_word ⟨by decide, by decide⟩ rfl

theorem volNode_several (hfiles : files.length ≠ 1) (hlines : ∀ f ∈ files, '\n' ∉ f.2) :
    Y.volNode name files = substitution (linesText ((Y.found name files).map fun f => node f.1)) := by
  have hgrep : Y.grep name files = linesText ((Y.found name files).map fun f => sysfsName f.1 ++ ':' :: f.2) := by
    match files with
    | [] => rfl
    | [_] => exact (hfiles rfl).elim
    | _ :: _ :: _ => rfl
  have hnewline : ∀ l ∈ (Y.found name files).map fun f => sysfsName f.1 ++ ':' :: f.2, '\n' ∉ l := by
    intro l hl hc
    obtain ⟨f, hf, rfl⟩ := List.mem_map.mp hl
    rcases List.mem_append.mp hc with hc | hc
    · rw [sysfsName, List.mem_append, List.mem_append] at hc
      rcases hc with (hc | hc) | hc
      · exact absurd hc (by decide)
      · exact absurd (mem_node hc).1 (by decide)
      · exact absurd hc (by decide)
    · rcases List.mem_cons.mp hc with h | hc
      · exact absurd h (by decide)
      · exact hlines f (List.mem_of_mem_filter hf) hc
  rw [System.volNode, hgrep, cut_linesText hnewline, List.map_map]
  congr 2
  apply List.map_congr_left
  intro f _
  exact field_sysfsName f.1 f.2

/-- Several volumes: the nodes of those that are found. -/
theorem nodeWords_several (hfiles : files.length ≠ 1) (hlines : ∀ f ∈ files, '\n' ∉ f.2) :
    Y.nodeWords (Y.volNode name files) = match Y.found name files with
      | [] => [devDir]
      | f :: fs => devNode f.1 :: fs.map fun f => node f.1 := by
  rw [volNode_several hfiles hlines]
  cases hfound : Y.found name files with
  | nil => exact nodeWords_nil
  | cons f fs =>
    have hwords : words (devDir ++ substitution (linesText (node f.1 :: fs.map fun f => node f.1))) =
        devNode f.1 :: fs.map fun f => node f.1 := by
      refine words_substitution (by decide) (isWord_node f.1) fun w hw => ?_
      obtain ⟨g, -, rfl⟩ := List.mem_map.mp hw
      exact isWord_node g.1
    have hexpand : ∀ w ∈ devNode f.1 :: fs.map fun f => node f.1, Y.shell.expand w = [w] := by
      intro w hw
      rcases List.mem_cons.mp hw with rfl | hw
      · exact expand_node _ (by decide) f.1
      · obtain ⟨g, -, rfl⟩ := List.mem_map.mp hw
        exact expand_node _ (p := []) rfl g.1
    rw [List.map_cons, System.nodeWords, Shell.unquoted, hwords, flatMap_expand hexpand]

/-- One volume: its name is taken for the node, if it is found at all. -/
theorem volNode_one (i j : Nat) (l : Line) : Y.volNode name [(i, l)] = Y.volNode name [(j, l)] := by
  by_cases hfound : Y.grepWord name l = true
  · simp [System.volNode, System.grep, hfound]
  · simp [System.volNode, System.grep, hfound]

theorem volNode_not_found {l : Line} (hfound : Y.grepWord name l = false) : Y.volNode name [(i, l)] = [] := by
  simp only [System.volNode, System.grep, List.filter_cons, hfound]
  rfl

/-! ## Which volume is written -/

def key (v : Volume) : Nat × Word := (v.id, v.name)

/-- The files that the lookup reads, and the operands that come of it. -/
def System.listing (Y : System) (vols : List Volume) : List (Nat × Word) := Y.order (vols.map key)

def System.operands (Y : System) (call : Call) (vols : List Volume) : List Word :=
  Y.nodeWords (Y.volNode call.name (Y.listing vols)) ++ [call.operand]

/-- What is written, if anything is, is the named volume, with the image. -/
def System.Safe (Y : System) (call : Call) (vols : List Volume) : Prop :=
  ∀ v, target vols (Y.operands call vols) = some v → v.name = call.name ∧ Y.operands call vols = [devNode v.id, call.operand]

theorem target_cons_eq {ws : List Word} (h : target vols (w :: ws) = some v) : v ∈ vols ∧ w = devNode v.id := by
  have hfind : vols.find? (fun v => devNode v.id = w) = some v := h
  have hnode := List.find?_some hfind
  exact ⟨List.mem_of_find?_eq_some hfind, (by simpa using hnode : devNode v.id = w).symm⟩

theorem target_devDir {ws : List Word} : target vols (devDir :: ws) = none := by
  cases h : target vols (devDir :: ws) with
  | none => rfl
  | some v =>
    obtain ⟨-, heq⟩ := target_cons_eq h
    exact ((isWord_node v.id).1 (List.self_eq_append_right.mp heq)).elim

theorem mem_others : v ∈ others name vols ↔ v ∈ vols ∧ v.name ≠ name := by simp [others]

theorem length_listing : (Y.listing vols).length = vols.length := by
  rw [System.listing, (Y.order_perm _).length_eq, List.length_map]

theorem mem_listing {f : Nat × Word} : f ∈ Y.listing vols ↔ ∃ v ∈ vols, key v = f := by
  rw [System.listing, (Y.order_perm _).mem_iff, List.mem_map]

theorem Valid.eq_of_id {u : Volume} (hvalid : Valid vols) (hu : u ∈ vols) (hv : v ∈ vols) (hid : u.id = v.id) : u = v :=
  List.inj_on_of_nodup_map hvalid.ids hu hv hid

theorem Valid.eq_of_name {u : Volume} (hvalid : Valid vols) (hu : u ∈ vols) (hv : v ∈ vols) (hname : u.name = v.name) :
    u = v :=
  List.inj_on_of_nodup_map hvalid.names hu hv hname

theorem Valid.listing_newline (hvalid : Valid vols) : ∀ f ∈ Y.listing vols, '\n' ∉ f.2 := by
  intro f hf
  obtain ⟨v, hv, rfl⟩ := (mem_listing).mp hf
  exact hvalid.lines v hv

/-- The listing of one volume. -/
theorem listing_one : Y.listing [v] = [key v] := by
  rw [System.listing, List.map_singleton]
  exact List.perm_singleton.mp (Y.order_perm _)

theorem safe_one (hmeets : Meets Y call [v]) : Y.Safe call [v] := by
  intro u htarget
  have hu : u = v := by
    cases hops : Y.operands call [v] with
    | nil => rw [hops] at htarget; cases htarget
    | cons w ws =>
      rw [hops] at htarget
      exact List.mem_singleton.mp (target_cons_eq htarget).1
  subst hu
  by_cases hname : u.name = call.name
  · have hothers : others call.name [u] = [] := by simp [others, hname]
    have hwords : Y.nodeWords (Y.volNode call.name (Y.listing [u])) = Y.soleWords call.name := by
      rw [listing_one, System.soleWords, key, hname, volNode_one u.id 0]
    have hhead : (Y.soleWords call.name ++ [call.operand]).head? = some (devNode u.id) := by
      rw [System.operands, hwords] at htarget
      cases hops : Y.soleWords call.name ++ [call.operand] with
      | nil => simp at hops
      | cons w ws =>
        rw [hops] at htarget
        rw [(target_cons_eq htarget).2]
        rfl
    rw [System.operands, hwords, hmeets.sole hothers u.id hhead]
    exact ⟨hname, rfl⟩
  · -- it is not found, and nothing is written
    have hother : u ∈ others call.name [u] := (mem_others).mpr ⟨List.mem_singleton_self _, hname⟩
    have hnone : Y.volNode call.name (Y.listing [u]) = [] := by
      rw [listing_one, key, volNode_not_found (hmeets.words u hother)]
    rw [System.operands, hnone, nodeWords_nil, List.singleton_append, target_devDir] at htarget
    cases htarget

theorem safe_several (hvalid : Valid vols) (hlength : vols.length ≠ 1) (hmeets : Meets Y call vols) : Y.Safe call vols := by
  intro v htarget
  have hwords := @nodeWords_several Y call.name (Y.listing vols) (by rwa [length_listing]) hvalid.listing_newline
  -- what is found is the named volume
  have hnamed : ∀ f ∈ Y.found call.name (Y.listing vols), ∃ u ∈ vols, key u = f ∧ u.name = call.name := by
    intro f hf
    obtain ⟨hf, hgrep⟩ := List.mem_filter.mp hf
    obtain ⟨u, hu, rfl⟩ := (mem_listing).mp hf
    by_cases hname : u.name = call.name
    · exact ⟨u, hu, rfl, hname⟩
    · have hnot := hmeets.words u (mem_others.mpr ⟨hu, hname⟩)
      exact absurd hgrep (by simpa [key] using hnot)
  have hnodup : (Y.found call.name (Y.listing vols)).Nodup := by
    refine List.Nodup.filter _ ((Y.order_perm _).nodup_iff.mpr ?_)
    refine List.Nodup.of_map Prod.fst ?_
    rw [List.map_map]
    exact hvalid.ids
  cases hfound : Y.found call.name (Y.listing vols) with
  | nil =>
    rw [hfound] at hwords
    rw [System.operands, hwords, List.singleton_append, target_devDir] at htarget
    cases htarget
  | cons f fs =>
    rw [hfound] at hwords hnamed hnodup
    obtain ⟨u, hu, rfl, hname⟩ := hnamed f (List.mem_cons_self ..)
    have hrest : fs = [] := by
      cases fs with
      | nil => rfl
      | cons g gs =>
        obtain ⟨u', hu', rfl, hname'⟩ := hnamed g (List.mem_cons_of_mem _ (List.mem_cons_self ..))
        rw [hvalid.eq_of_name hu hu' (hname.trans hname'.symm)] at hnodup
        simp at hnodup
    subst hrest
    have hops : Y.operands call vols = [devNode u.id, call.operand] := by
      rw [System.operands, hwords]
      rfl
    rw [hops] at htarget
    obtain ⟨hv, hnode⟩ := target_cons_eq htarget
    obtain rfl : u = v := hvalid.eq_of_id hu hv (devNode_inj hnode)
    exact ⟨hname, hops⟩

theorem safe_of_meets (hvalid : Valid vols) (hmeets : Meets Y call vols) : Y.Safe call vols := by
  by_cases hlength : vols.length = 1
  · obtain ⟨v, rfl⟩ := List.length_eq_one_iff.mp hlength
    exact safe_one hmeets
  · exact safe_several hvalid hlength hmeets

end VolNode
