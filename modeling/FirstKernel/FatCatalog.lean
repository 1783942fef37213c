import FirstKernel.Catalog
import FirstKernel.FatDurable
import FirstKernel.FatSizes
import FirstKernel.ForestPaths

/-!
# The volume refines the catalog

A well-formed volume depicts a catalog (`Depicts`): its directories by the
slots that lead to them, its files by what their chains hold. Every call
does to the catalog shown what `Catalog.exec` does, and prints what it
prints (`catalog_runs`). Where on the disk a file lies, and which
clusters are free, makes no difference to anything that is printed.

Two calls are left out. The bytes of a directory are not text, so no
catalog can say what `cat_file` prints of one; and a name that starts with
the deletion mark makes an entry that is not there.
-/

namespace FirstKernel

/-- The eleven bytes of name and extension. -/
def Sector.wholeName (b : Sector) (i : Slot) : Buffer 11 :=
  fun m => b ⟨32 * i.val + m.val, by omega⟩

/-- What a slot in use depicts. -/
noncomputable def nodeOf (disk : Nat → Sector) (d : UInt16) (i : Slot) : Node where
  name := (dir disk d).wholeName i
  size := (dir disk d).size i
  isDir := decide ((dir disk d).attributes i = 0x10)
  clusters := (chainOf disk (headOf disk d i)).length
  texts := if (dir disk d).attributes i = 0x10 then []
    else (chainOf disk (headOf disk d i)).map (clusterText disk)

noncomputable def nodeAt (disk : Nat → Sector) (d : UInt16) (i : Slot) : Option Node :=
  if Live (dir disk d) i then some (nodeOf disk d i) else none

/-- The catalog is what the volume holds. -/
structure Depicts (fs : Fs) (c : Catalog) : Prop where
  node_eq : ∀ i p, c.node (i :: p) =
    ((forestOf fs.disk).dirAt p).bind fun d => nodeAt fs.disk d i
  cwd_eq : (forestOf fs.disk).dirAt c.cwd = some fs.currentDirCluster
  free_eq : c.free = freeCount fs.disk
  printed_eq : c.printed = fs.printed

theorem nodeAt_eq_some {disk : Nat → Sector} {d : UInt16} {i : Slot} {n : Node} :
    nodeAt disk d i = some n ↔ Live (dir disk d) i ∧ nodeOf disk d i = n := by
  rw [nodeAt]
  split
  · next h => simp [h]
  · next h => simp [h]

theorem nodeAt_eq_none {disk : Nat → Sector} {d : UInt16} {i : Slot} :
    nodeAt disk d i = none ↔ ¬Live (dir disk d) i := by
  rw [nodeAt]
  split
  · next h => simp [h]
  · next h => simp [h]

namespace Depicts

variable {fs fs' : Fs} {c : Catalog}

theorem entry_eq (h : Depicts fs c) (i : Slot) :
    c.entry i = nodeAt fs.disk fs.currentDirCluster i := by
  rw [Catalog.entry, h.node_eq, h.cwd_eq, Option.bind_some]

/-- Both look for the same name in the same places. -/
theorem find_eq (h : Depicts fs c) (name : CString) : c.find name = lookup name fs := by
  have hnamed : ∀ i, Catalog.isNamed name (nodeOf fs.disk fs.currentDirCluster i) ↔
      nameMatches (padded 8 name) (dir fs.disk fs.currentDirCluster) i :=
    fun i => nameMatches_iff_eq.symm
  refine Option.ext fun i => ?_
  show c.find name = some i ↔ findEntry (dir fs.disk fs.currentDirCluster) _ = some i
  rw [Catalog.find_eq_some, findEntry_eq_some]
  simp only [h.entry_eq, nodeAt_eq_some]
  constructor
  · rintro ⟨⟨n, ⟨hlive, rfl⟩, hn⟩, hfirst⟩
    exact ⟨hlive, (hnamed i).mp hn,
      fun j hj hlive' hm => hfirst j hj _ ⟨hlive', rfl⟩ ((hnamed j).mpr hm)⟩
  · rintro ⟨hlive, hm, hfirst⟩
    refine ⟨⟨_, ⟨hlive, rfl⟩, (hnamed i).mpr hm⟩, ?_⟩
    rintro j hj _ ⟨hlive', rfl⟩ hn
    exact hfirst j hj hlive' ((hnamed j).mp hn)

theorem vacant_eq (h : Depicts fs c) :
    c.vacant = findFreeDirEntry (dir fs.disk fs.currentDirCluster) := by
  refine Option.ext fun i => ?_
  rw [Catalog.vacant_eq_some, findFreeDirEntry_eq_some]
  simp only [h.entry_eq, ne_eq, nodeAt_eq_none, not_not]
  constructor
  · rintro ⟨hvacant, hlive⟩
    refine ⟨?_, fun j hj => ⟨(hlive j hj).2 j (Fin.le_refl j), (hlive j hj).1⟩⟩
    by_contra hused
    obtain ⟨h0, hE5⟩ := not_or.mp hused
    refine hvacant ⟨hE5, fun k hk => ?_⟩
    rcases Fin.lt_or_eq_of_le hk with hlt | rfl
    · exact (hlive k hlt).2 k (Fin.le_refl k)
    · exact h0
  · rintro ⟨hfree, hused⟩
    refine ⟨not_live_of_findFreeDirEntry (findFreeDirEntry_eq_some.mpr ⟨hfree, hused⟩),
      fun j hj => ⟨(hused j hj).2, fun k hk => ?_⟩⟩
    exact (hused k (Fin.lt_of_le_of_lt hk hj)).1

theorem free_eq_zero_iff (h : Depicts fs c) : c.free = 0 ↔ findFreeCluster fs = 0 := by
  rw [h.free_eq, findFreeCluster_eq_zero_iff, freeCount, Finset.card_eq_zero,
    Finset.filter_eq_empty_iff]
  exact forall_congr' fun x => by rw [mem_dataClusters]

theorem cwd_nil_iff (h : Depicts fs c) (hwf : WellFormed fs) :
    c.cwd = [] ↔ fs.currentDirCluster = 0 := by
  have hroot : (forestOf fs.disk).dirAt [] = some 0 := rfl
  constructor
  · intro hnil
    have hcwd := h.cwd_eq
    rw [hnil, hroot] at hcwd
    exact (Option.some.inj hcwd).symm
  · intro h0
    exact hwf.sound.dirAt_inj h.cwd_eq (h0 ▸ hroot)

end Depicts

/-! ## What stays -/

theorem chainOf_eq {disk : Nat → Sector} {h : UInt16} {l : List UInt16} (hc : Chain disk h l) :
    chainOf disk h = l :=
  (chain_chainOf ⟨l, hc⟩).unique hc

/-- No directory is a cluster of a file. -/
theorem dirSector_ne_of_file {fs : Fs} (hwf : WellFormed fs) {d : UInt16} {j : Slot}
    (hlive : LiveEntry fs.disk d j) (hfile : (dir fs.disk d).attributes j ≠ 0x10)
    {l : List UInt16} (hchain : Chain fs.disk (headOf fs.disk d j) l) {x : UInt16} (hx : x ∈ l)
    {y : UInt16} (hy : Reachable fs.disk y) : clusterToSector x ≠ dirSector y := by
  have hin := hchain.inData x hx
  rw [← dirSector_of_inData hin]
  intro heq
  obtain rfl := dirSector_injective heq
  rcases Forest.reachable_cases hy with hroot | ⟨z, k, e, he, hdir, hhead⟩
  · have h0 : x = 0 := hroot
    exact not_inData_zero (h0 ▸ hin)
  · -- the one entry with this cluster is the file
    have hown : (forestOf fs.disk).Owns e.head x := by
      rw [hhead]
      exact ⟨hin, .refl⟩
    obtain ⟨rfl, rfl⟩ := hwf.sound.disjoint he hlive.live hown ((hchain.mem_iff x).mp hx)
    obtain ⟨-, rfl⟩ := entry_eq_some.mp he.2
    exact hfile (of_decide_eq_true hdir)

/-- An entry that is kept depicts the same. -/
theorem Keeps.nodeOf_eq {fs fs' : Fs} {s : Slot} {d : UInt16} {j : Slot} (h : Keeps fs fs' s d j)
    (hwf : WellFormed fs) (hlive : LiveEntry fs.disk d j) :
    nodeOf fs'.disk d j = nodeOf fs.disk d j := by
  obtain ⟨l, hchain⟩ := hwf.chains d j hlive
  have hhead : headOf fs'.disk d j = headOf fs.disk d j := h.slot.clusterLow_eq
  have hname : (dir fs'.disk d).wholeName j = (dir fs.disk d).wholeName j := by
    refine funext fun m => h.slot _ ?_
    show (32 * j.val + m.val) / 32 = j.val
    omega
  have htexts : (dir fs.disk d).attributes j ≠ 0x10 →
      l.map (clusterText fs'.disk) = l.map (clusterText fs.disk) := by
    intro hfile
    refine List.map_congr_left fun x hx => ?_
    have hsector : fs'.disk (clusterToSector x) = fs.disk (clusterToSector x) := by
      funext k
      refine (h.data l hchain x hx k).resolve_right fun hcwd => ?_
      exact dirSector_ne_of_file hwf hlive hfile hchain hx hwf.cwd hcwd.1
    rw [clusterText, clusterText, hsector]
  simp only [nodeOf, hhead, chainOf_eq (h.chain l hchain), chainOf_eq hchain, hname,
    h.slot.attributes_eq, h.slot.size_eq]
  split
  · rfl
  · next hfile => rw [htexts hfile]

/-! ## Creation -/

section Creation

variable {fs fs' : Fs} {i : Slot} {name : Buffer 11} {size : UInt32} {attributes : UInt8}
  {data : Sector}

theorem Created.nodeAt_old (h : Created fs fs' i name size attributes data) (hwf : WellFormed fs)
    (hname : name 0 ≠ 0) {d : UInt16} (hd : Reachable fs.disk d) {j : Slot}
    (hne : ¬(d = fs.currentDirCluster ∧ j = i)) : nodeAt fs'.disk d j = nodeAt fs.disk d j := by
  by_cases hlive : Live (dir fs.disk d) j
  · have hkeeps := h.keeps hwf hname ⟨hd, hlive⟩
    rw [nodeAt, nodeAt, if_pos hlive, if_pos hkeeps.live, hkeeps.nodeOf_eq hwf ⟨hd, hlive⟩]
  · have hlive' : ¬Live (dir fs'.disk d) j := by
      by_cases hcwd : d = fs.currentDirCluster
      · subst hcwd
        rw [h.inserted.live_iff hwf hname, if_neg fun hji => hne ⟨rfl, hji⟩]
        exact hlive
      · rw [h.inserted.dir_of_reachable hwf hd hcwd]
        exact hlive
    rw [nodeAt, nodeAt, if_neg hlive, if_neg hlive']

theorem Created.freeCount_eq (h : Created fs fs' i name size attributes data) :
    freeCount fs'.disk = freeCount fs.disk - 1 := by
  have hmem : findFreeCluster fs ∈ dataClusters.filter fun c => (fs.disk 50).link c = 0 :=
    Finset.mem_filter.mpr ⟨mem_dataClusters.mpr h.cluster_inData, h.cluster_free.2⟩
  have hfree : (dataClusters.filter fun c => (fs'.disk 50).link c = 0) =
      (dataClusters.filter fun c => (fs.disk 50).link c = 0).erase (findFreeCluster fs) := by
    ext x
    rw [Finset.mem_erase, Finset.mem_filter, Finset.mem_filter, h.link_eq]
    by_cases hx : x = findFreeCluster fs
    · simp [hx]
    · simp [hx]
  rw [freeCount, hfree, Finset.card_erase_of_mem hmem, freeCount]

/-- The new directory is at the new place, and every other one where it was. -/
theorem Created.dirAt_iff (h : Created fs fs' i name size attributes data) (hwf : WellFormed fs)
    (hname : name 0 ≠ 0) (hmark : name 0 ≠ 0xE5)
    (hdata : attributes = 0x10 → ∀ j, data.name j 0 = 0) {p q : List Slot} {x : UInt16}
    (hp : (forestOf fs.disk).dirAt p = some fs.currentDirCluster) :
    (forestOf fs'.disk).dirAt q = some x ↔ (forestOf fs.disk).dirAt q = some x ∨
      (q = i :: p ∧ x = findFreeCluster fs ∧ attributes = 0x10) := by
  have hnew : newEntry name attributes (findFreeCluster fs) =
      some ⟨findFreeCluster fs, decide (attributes = 0x10)⟩ := if_neg hmark
  rw [(h.alloc hwf hname hdata).toInsert.dirAt_iff hwf.sound hp, hnew]
  simp

/-- **A creation puts one node into the first vacant place.** -/
theorem Depicts.created {c : Catalog} (hc : Depicts fs c) (hwf : WellFormed fs)
    (h : Created fs fs' i name size attributes data) (hname : name 0 ≠ 0) (hmark : name 0 ≠ 0xE5)
    (hdata : attributes = 0x10 → ∀ j, data.name j 0 = 0) {report : List Text}
    (hprinted : fs'.printed = fs.printed ++ report) :
    Depicts fs'
      { c with
        node := Function.update c.node (i :: c.cwd)
          (some (nodeOf fs'.disk fs.currentDirCluster i))
        free := c.free - 1
        printed := c.printed ++ report } := by
  have hpath : ∀ {q : List Slot} {x : UInt16}, (forestOf fs'.disk).dirAt q = some x ↔
      (forestOf fs.disk).dirAt q = some x ∨
        (q = i :: c.cwd ∧ x = findFreeCluster fs ∧ attributes = 0x10) :=
    h.dirAt_iff hwf hname hmark hdata hc.cwd_eq
  have hlive : Live (dir fs'.disk fs.currentDirCluster) i :=
    (h.inserted.live_iff hwf hname i).mpr (by rw [if_pos rfl]; exact hmark)
  refine ⟨fun j q => ?_, ?_, ?_, ?_⟩
  · show Function.update c.node (i :: c.cwd) _ (j :: q) = _
    by_cases heq : j :: q = i :: c.cwd
    · rw [heq, Function.update_self]
      obtain ⟨rfl, rfl⟩ := List.cons_eq_cons.mp heq
      rw [hpath.mpr (Or.inl hc.cwd_eq), Option.bind_some, nodeAt, if_pos hlive]
    rw [Function.update_of_ne heq, hc.node_eq]
    cases hq : (forestOf fs.disk).dirAt q with
    | some d =>
        rw [hpath.mpr (Or.inl hq), Option.bind_some, Option.bind_some]
        refine (h.nodeAt_old hwf hname (Forest.reachable_of_dirAt hq) ?_).symm
        rintro ⟨rfl, rfl⟩
        exact heq (by rw [hwf.sound.dirAt_inj hq hc.cwd_eq])
    | none =>
        cases hq' : (forestOf fs'.disk).dirAt q with
        | none => rfl
        | some x =>
            -- the new directory, in which nothing is
            rcases hpath.mp hq' with hold | ⟨-, rfl, hattr⟩
            · rw [hq] at hold
              cases hold
            · refine (nodeAt_eq_none.mpr fun hnew => ?_).symm
              rw [h.dir_new] at hnew
              exact hnew.2 j (Fin.le_refl j) (hdata hattr j)
  · rw [h.cwd_eq]
    exact hpath.mpr (Or.inl hc.cwd_eq)
  · rw [h.freeCount_eq, ← hc.free_eq]
  · rw [hprinted, ← hc.printed_eq]

theorem wholeName_fillEntry_self {b : Sector} {cluster : UInt16} :
    (b.fillEntry i name size attributes cluster).wholeName i = name := by
  funext m
  by_cases hm : m.val < 8
  · exact name_fillEntry_self (⟨m.val, hm⟩ : Fin 8)
  · have hext : (b.fillEntry i name size attributes cluster).ext i ⟨m.val - 8, by omega⟩ =
        name ⟨8 + (m.val - 8), by omega⟩ := ext_fillEntry_self _
    have hindex : 8 + (m.val - 8) = m.val := by omega
    simp only [Sector.ext, Nat.add_assoc, hindex] at hext
    exact hext

/-- The node that is put there. -/
theorem Created.nodeOf_new (h : Created fs fs' i name size attributes data) :
    nodeOf fs'.disk fs.currentDirCluster i =
      { name := name
        size := size
        isDir := decide (attributes = 0x10)
        clusters := 1
        texts :=
          if attributes = 0x10 then [] else [clusterText fs'.disk (findFreeCluster fs)] } := by
  rw [nodeOf, h.headOf_new, chainOf_eq h.chain_new, h.at_dir, wholeName_fillEntry_self,
    size_fillEntry_self, attributes_fillEntry_self]
  rfl

/-- Of the contents, what fits into a cluster is printed. -/
theorem clusterText_take {disk : Nat → Sector} {c : UInt16} {content : CString}
    (h : disk (clusterToSector c) = contentSector content) :
    clusterText disk c = content.chars.take 511 := by
  have htake : (0 : UInt8) ∉ content.chars.take 511 := fun h0 =>
    content.noNul (List.mem_of_mem_take h0)
  have hsector : contentSector content = contentSector ⟨content.chars.take 511, htake⟩ := by
    rw [contentSector, contentSector, List.take_take, Nat.min_self]
  exact clusterText_contentSector (h.trans hsector) (List.length_take_le 511 content.chars)

end Creation

/-! ## Deletion -/

section Deletion

variable {fs fs' : Fs} {i : Slot} {l : List UInt16}

theorem Removed.nodeAt_old (h : Removed fs fs' i l) (hwf : WellFormed fs) {d : UInt16}
    (hd : Reachable fs.disk d) {j : Slot} (hne : ¬(d = fs.currentDirCluster ∧ j = i)) :
    nodeAt fs'.disk d j = nodeAt fs.disk d j := by
  by_cases hlive : Live (dir fs.disk d) j
  · have hkeeps := h.keeps hwf ⟨hd, hlive⟩ hne
    rw [nodeAt, nodeAt, if_pos hlive, if_pos hkeeps.live, hkeeps.nodeOf_eq hwf ⟨hd, hlive⟩]
  · have hlive' : ¬Live (dir fs'.disk d) j := by
      by_cases hcwd : d = fs.currentDirCluster
      · subst hcwd
        rw [h.unlinked.live_iff]
        exact fun hold => hlive hold.1
      · rw [h.unlinked.dir_other d hcwd]
        exact hlive
    rw [nodeAt, nodeAt, if_neg hlive, if_neg hlive']

theorem Removed.freeCount_eq (h : Removed fs fs' i l) :
    freeCount fs'.disk = freeCount fs.disk + l.length := by
  have hfree : (dataClusters.filter fun c => (fs'.disk 50).link c = 0) =
      (dataClusters.filter fun c => (fs.disk 50).link c = 0) ∪ l.toFinset := by
    ext x
    rw [Finset.mem_union, Finset.mem_filter, Finset.mem_filter, List.mem_toFinset, h.at_fat]
    by_cases hx : x ∈ l
    · simp [hx, mem_dataClusters.mpr (h.chain.inData x hx)]
    · simp [hx]
  have hdisjoint : Disjoint (dataClusters.filter fun c => (fs.disk 50).link c = 0) l.toFinset := by
    refine Finset.disjoint_left.mpr fun x hx hmem => ?_
    exact h.chain.link_ne_zero (List.mem_toFinset.mp hmem) (Finset.mem_filter.mp hx).2
  rw [freeCount, hfree, Finset.card_union_of_disjoint hdisjoint,
    List.toFinset_card_of_nodup h.chain.nodup, freeCount]

/-- **A deletion takes a node away with everything below it.** -/
theorem Depicts.removed {c : Catalog} (hc : Depicts fs c) (hwf : WellFormed fs)
    (h : Removed fs fs' i l) {report : List Text} (hprinted : fs'.printed = fs.printed ++ report) :
    Depicts fs'
      { c with
        node := fun p => if (i :: c.cwd) <:+ p then none else c.node p
        free := c.free + ((c.entry i).map Node.clusters).getD 0
        printed := c.printed ++ report } := by
  have hpath : ∀ {q : List Slot} {x : UInt16}, (forestOf fs'.disk).dirAt q = some x ↔
      (forestOf fs.disk).dirAt q = some x ∧ ¬(i :: c.cwd) <:+ q :=
    (h.unlinked.unlink hwf).dirAt_iff hwf.sound hc.cwd_eq
  have hcwd : (forestOf fs'.disk).dirAt c.cwd = some fs.currentDirCluster :=
    hpath.mpr ⟨hc.cwd_eq, fun hsuffix => absurd hsuffix.length_le (by simp)⟩
  refine ⟨fun j q => ?_, by rw [h.cwd_eq]; exact hcwd, ?_, ?_⟩
  · show (if (i :: c.cwd) <:+ j :: q then none else c.node (j :: q)) = _
    by_cases hsuffix : (i :: c.cwd) <:+ j :: q
    · rw [if_pos hsuffix]
      rcases List.suffix_cons_iff.mp hsuffix with heq | hq
      · obtain ⟨rfl, rfl⟩ := List.cons_eq_cons.mp heq
        rw [hcwd, Option.bind_some]
        refine (nodeAt_eq_none.mpr fun hlive => ?_).symm
        exact ((h.unlinked.live_iff i).mp hlive).2 rfl
      · cases hq' : (forestOf fs'.disk).dirAt q with
        | none => rfl
        | some x => exact absurd hq (hpath.mp hq').2
    · rw [if_neg hsuffix, hc.node_eq]
      obtain ⟨hne, hq⟩ := not_or.mp fun hor => hsuffix (List.suffix_cons_iff.mpr hor)
      cases hold : (forestOf fs.disk).dirAt q with
      | some d =>
          rw [hpath.mpr ⟨hold, hq⟩, Option.bind_some, Option.bind_some]
          refine (h.nodeAt_old hwf (Forest.reachable_of_dirAt hold) ?_).symm
          rintro ⟨rfl, rfl⟩
          exact hne (by rw [hwf.sound.dirAt_inj hold hc.cwd_eq])
      | none =>
          cases hq' : (forestOf fs'.disk).dirAt q with
          | none => rfl
          | some x =>
              rw [(hpath.mp hq').1] at hold
              cases hold
  · have hclusters : ((c.entry i).map Node.clusters).getD 0 = l.length := by
      rw [hc.entry_eq, nodeAt, if_pos h.live]
      exact congrArg List.length (chainOf_eq h.chain)
    rw [h.freeCount_eq, hclusters, ← hc.free_eq]
  · rw [hprinted, ← hc.printed_eq]

end Deletion

/-! ## Every call -/

/-- The slots that are listed are the live ones. -/
theorem listed_eq (entries : Sector) : ∀ {slots : List Slot}, slots.Pairwise (· < ·) →
    (∀ i ∈ slots, ∀ k < i, k ∉ slots → entries.name k 0 ≠ 0x00) →
    listed entries slots = slots.filter fun i => decide (Live entries i)
  | [], _, _ => rfl
  | i :: slots, hsorted, hused => by
      obtain ⟨hlt, hrest⟩ := List.pairwise_cons.mp hsorted
      rw [listed]
      by_cases hfree : entries.name i 0 = 0x00
      · rw [if_pos hfree, eq_comm, List.filter_eq_nil_iff]
        intro k hk hlive
        refine (of_decide_eq_true hlive).2 i ?_ hfree
        rcases List.mem_cons.mp hk with rfl | hk
        · exact Fin.le_refl k
        · exact Fin.le_of_lt (hlt k hk)
      · have hlater := listed_eq entries hrest fun m hm k hkm hk => by
          by_cases hki : k = i
          · rw [hki]
            exact hfree
          · exact hused m (List.mem_cons_of_mem i hm) k hkm
              (not_or.mpr ⟨hki, hk⟩ ∘ List.mem_cons.mp)
        rw [if_neg hfree, hlater]
        by_cases hdeleted : entries.name i 0 = 0xE5
        · rw [if_pos hdeleted, List.filter_cons_of_neg]
          exact fun hlive => (of_decide_eq_true hlive).1 hdeleted
        · rw [if_neg hdeleted, List.filter_cons_of_pos]
          refine decide_eq_true ⟨hdeleted, fun k hk => ?_⟩
          rcases Fin.lt_or_eq_of_le hk with hki | rfl
          · refine hused i (List.mem_cons_self ..) k hki fun hmem => ?_
            rcases List.mem_cons.mp hmem with rfl | hmem
            · exact Fin.lt_irrefl k hki
            · exact absurd (hlt k hmem) (Fin.not_lt.mpr hk)
          · exact hfree

theorem filterMap_nodeAt (disk : Nat → Sector) (d : UInt16) : ∀ slots : List Slot,
    slots.filterMap (nodeAt disk d) =
      (slots.filter fun i => decide (Live (dir disk d) i)).map (nodeOf disk d)
  | [] => rfl
  | i :: slots => by
      by_cases hlive : Live (dir disk d) i
      · rw [List.filterMap_cons_some (nodeAt_eq_some.mpr ⟨hlive, rfl⟩), filterMap_nodeAt,
          List.filter_cons_of_pos (by exact decide_eq_true hlive), List.map_cons]
      · rw [List.filterMap_cons_none (nodeAt_eq_none.mpr hlive), filterMap_nodeAt,
          List.filter_cons_of_neg]
        exact fun hpos => hlive (of_decide_eq_true hpos)

theorem listNode_nodeOf (disk : Nat → Sector) (d : UInt16) (i : Slot) :
    Catalog.listNode (nodeOf disk d i) = listEntry (dir disk d) i := by
  have hext : extOf ((dir disk d).wholeName i) = (dir disk d).ext i := by
    funext m
    exact congrArg (dir disk d) (Fin.ext (Nat.add_assoc (32 * i.val) 8 m.val).symm)
  simp only [Catalog.listNode, nodeOf, hext, decide_eq_true_eq]
  rfl

namespace Depicts

variable {fs fs' : Fs} {c : Catalog}

theorem print (h : Depicts fs c) {messages : List Text} (hdisk : fs'.disk = fs.disk)
    (hcwd : fs'.currentDirCluster = fs.currentDirCluster)
    (hprinted : fs'.printed = fs.printed ++ messages) : Depicts fs' (c.print messages) where
  node_eq := by rw [hdisk]; exact h.node_eq
  cwd_eq := by rw [hdisk, hcwd]; exact h.cwd_eq
  free_eq := by rw [hdisk]; exact h.free_eq
  printed_eq := by rw [hprinted, ← h.printed_eq]; rfl

theorem message (h : Depicts fs c) (message : Text) :
    Depicts (FirstKernel.print message fs) (c.print [message]) :=
  h.print rfl rfl rfl

/-- `write_file` and `make_directory` -/
theorem create (h : Depicts fs c) (hwf : WellFormed fs) (dirFull : Text) {name : Buffer 11}
    (hname : name 0 ≠ 0) (hmark : name 0 ≠ 0xE5) (size : UInt32) {attributes : UInt8}
    {data : Sector} (hdata : attributes = 0x10 → ∀ j, data.name j 0 = 0) {texts : List Text}
    (htexts : ∀ (disk : Nat → Sector) (x : UInt16), disk (clusterToSector x) = data →
      (if attributes = 0x10 then [] else [clusterText disk x]) = texts) (report : List Text) :
    Depicts (createEntry dirFull name size attributes data report fs)
      (c.create dirFull ⟨name, size, decide (attributes = 0x10), 1, texts⟩ report) := by
  rcases createEntry_cases dirFull name size attributes data report fs with
    ⟨hfull, heq⟩ | ⟨hfree, hslot, heq⟩ | ⟨hfree, i, hslot, heq⟩
  · rw [heq, Catalog.create, if_pos (h.free_eq_zero_iff.mpr hfull)]
    exact h.message _
  · have hvacant : c.vacant = none := h.vacant_eq.trans hslot
    rw [heq, Catalog.create, if_neg (mt h.free_eq_zero_iff.mp hfree), hvacant]
    exact h.message _
  · have hvacant : c.vacant = some i := h.vacant_eq.trans hslot
    have hcreated := created_of_writes hwf hfree hslot name size attributes data report
    have hprinted : (printAll report (fs.withWrites (createWrites fs i name size attributes
        data))).printed = fs.printed ++ report := rfl
    have hdepicts := h.created hwf hcreated hname hmark hdata hprinted
    rw [hcreated.nodeOf_new, htexts _ _ hcreated.at_data] at hdepicts
    rw [heq, Catalog.create, if_neg (mt h.free_eq_zero_iff.mp hfree), hvacant]
    exact hdepicts

theorem remove (h : Depicts fs c) (hwf : WellFormed fs) (filename : CString) :
    ∃ fs', removeFile filename fs = .ok fs' ∧ Depicts fs' (c.remove filename) := by
  cases hlook : lookup filename fs with
  | none =>
      rw [Catalog.remove_none ((h.find_eq filename).trans hlook)]
      exact ⟨_, removeFile_none hlook, h.message _⟩
  | some i =>
      obtain ⟨fs', l, hrun, hremoved, hprinted⟩ := removeFile_outcome hwf hlook
      rw [Catalog.remove_some ((h.find_eq filename).trans hlook)]
      exact ⟨fs', hrun, h.removed hwf hremoved hprinted⟩

theorem enter (h : Depicts fs c) (dirname : CString) :
    Depicts (changeDirectory dirname fs) (c.enter dirname) := by
  have hroot : strcmp dirname slash = 0 ∨ strcmp dirname dotDot = 0 ↔
      dirname = slash ∨ dirname = dotDot := or_congr strcmp_eq_zero strcmp_eq_zero
  rw [changeDirectory, Catalog.enter]
  simp only [hroot, h.find_eq]
  split
  · exact ⟨h.node_eq, rfl, h.free_eq, by rw [h.printed_eq]; rfl⟩
  · cases hlook : lookup dirname fs with
    | none => exact h.message _
    | some i =>
        have hentry : c.entry i = some (nodeOf fs.disk fs.currentDirCluster i) := by
          rw [h.entry_eq, nodeAt, if_pos (lookup_live hlook)]
        have hdir : (c.entry i).any Node.isDir = true ↔
            (readCurrentDirectory fs).attributes i = 0x10 := by
          rw [hentry]
          exact decide_eq_true_iff
        simp only [hdir]
        split
        · next hattr =>
            refine ⟨h.node_eq, ?_, h.free_eq, by rw [h.printed_eq]; rfl⟩
            have hentry := entry_eq_some.mpr ⟨lookup_live hlook, rfl⟩
            exact Forest.dirAt_cons.mpr ⟨_, _, h.cwd_eq, hentry, decide_eq_true hattr, rfl⟩
        · exact h.print rfl rfl rfl

theorem read (h : Depicts fs c) (hwf : WellFormed fs) (filename : CString)
    (hfile : ∀ i, lookup filename fs = some i →
      (dir fs.disk fs.currentDirCluster).attributes i ≠ 0x10) :
    ∃ fs', catFile filename fs = .ok fs' ∧ Depicts fs' (c.read filename) := by
  cases hlook : lookup filename fs with
  | none =>
      rw [Catalog.read_none ((h.find_eq filename).trans hlook)]
      exact ⟨_, catFile_none hlook, h.message _⟩
  | some i =>
      obtain ⟨l, hchain, hrun⟩ := catFile_chain hwf hlook
      have htexts : ((c.entry i).map Node.texts).getD [] = l.map (clusterText fs.disk) := by
        rw [h.entry_eq, nodeAt, if_pos (lookup_live hlook), ← chainOf_eq hchain]
        exact if_neg (hfile i hlook)
      rw [Catalog.read_some ((h.find_eq filename).trans hlook), htexts]
      refine ⟨_, hrun, h.print rfl rfl ?_⟩
      simp only [Fs.afterCat, FirstKernel.print, List.append_assoc]

theorem list (h : Depicts fs c) (hwf : WellFormed fs) : Depicts (listFiles fs) c.list := by
  have hlisted := listed_eq (dir fs.disk fs.currentDirCluster) (List.pairwise_lt_finRange 16)
    fun _ _ k _ hk => absurd (List.mem_finRange k) hk
  have hnodes : (List.finRange 16).filterMap c.entry =
      (listed (dir fs.disk fs.currentDirCluster) (List.finRange 16)).map
        (nodeOf fs.disk fs.currentDirCluster) := by
    rw [hlisted, ← filterMap_nodeAt]
    exact congrArg (fun f => (List.finRange 16).filterMap f) (funext h.entry_eq)
  have hlines : ∀ slots : List Slot,
      (slots.map (nodeOf fs.disk fs.currentDirCluster)).flatMap Catalog.listNode =
        slots.flatMap (listEntry (dir fs.disk fs.currentDirCluster)) := by
    intro slots
    rw [List.flatMap_map]
    exact List.flatMap_congr fun i _ => listNode_nodeOf _ _ i
  refine h.print rfl rfl ?_
  simp only [hnodes, hlines, List.map_eq_nil_iff, h.cwd_nil_iff hwf]
  rfl

/-- **One call.** -/
theorem exec (h : Depicts fs c) (hwf : WellFormed fs) {call : Call} (hplain : c.Plain call) :
    ∃ fs', FirstKernel.exec call fs = .ok fs' ∧ Depicts fs' (Catalog.exec call c) := by
  cases call with
  | writeFile filename content =>
      have hattr : (0x20 : UInt8) ≠ 0x10 := by decide
      refine ⟨_, rfl, h.create hwf _ (filename.noNul 0) (hplain.unmarked _ rfl) _
        (fun h10 => absurd h10 hattr) (fun disk x hx => ?_) _⟩
      rw [if_neg hattr, clusterText_take hx]
  | makeDirectory dirname =>
      have hnew : (Call.makeDirectory dirname).newName = some (dirName dirname) := rfl
      exact ⟨_, rfl, h.create hwf _ (Call.newName_ne_zero hnew) (hplain.unmarked _ hnew) _
        (fun _ _ => rfl) (fun _ _ _ => if_pos rfl) _⟩
  | removeFile filename => exact h.remove hwf filename
  | changeDirectory dirname => exact ⟨_, rfl, h.enter dirname⟩
  | catFile filename =>
      refine h.read hwf filename fun i hlook hattr => ?_
      have hentry : c.entry i = some (nodeOf fs.disk fs.currentDirCluster i) := by
        rw [h.entry_eq, nodeAt, if_pos (lookup_live hlook)]
      have hdir := hplain.readsFile filename i _ rfl ((h.find_eq filename).trans hlook) hentry
      exact of_decide_eq_false hdir hattr
  | listFiles => exact ⟨_, rfl, h.list hwf⟩

end Depicts

/-! ## Runs -/

/-- Every well-formed volume depicts a catalog. -/
theorem WellFormed.exists_depicts {fs : Fs} (hwf : WellFormed fs) : ∃ c, Depicts fs c := by
  obtain ⟨cwd, hcwd⟩ := Forest.Reachable.exists_dirAt hwf.cwd
  let node : List Slot → Option Node := fun p =>
    p.head?.bind fun i => ((forestOf fs.disk).dirAt p.tail).bind fun d => nodeAt fs.disk d i
  exact ⟨⟨node, cwd, freeCount fs.disk, fs.printed⟩, ⟨fun _ _ => rfl, hcwd, rfl, rfl⟩⟩

/-- **The volume refines the catalog.** In every run the volume goes on showing what the calls
make of a catalog that it depicts, and prints what they print. -/
theorem catalog_runs {fs : Fs} (hwf : WellFormed fs) :
    (∃ c, Depicts fs c) ∧ ∀ c, Depicts fs c → ∀ calls,
      Guarded Catalog.step Catalog.Plain calls c →
        ∃ fs' c', runs exec calls fs = .ok fs' ∧ runs Catalog.step calls c = .ok c' ∧
          WellFormed fs' ∧ Depicts fs' c' := by
  refine ⟨hwf.exists_depicts, fun c hc calls hplain => ?_⟩
  refine runs_simulates (fun call s t h hcall => ?_) calls ⟨hwf, hc⟩ hplain
  obtain ⟨s', hrun, hdepicts⟩ := h.2.exec h.1 hcall
  obtain ⟨s1, hrun1, hwf1⟩ := exec_wellFormed h.1 call
  obtain rfl := Except.ok.inj (hrun.symm.trans hrun1)
  exact ⟨s', _, hrun, rfl, hwf1, hdepicts⟩

/-- A formatted one depicts the blank catalog. -/
theorem Formatted.depicts_blank {fs : Fs} (h : Formatted fs) :
    Depicts fs { Catalog.blank with printed := fs.printed } := by
  have hall : ∀ x ∈ dataClusters, (fs.disk 50).link x = 0 := by
    intro x hx
    have hin := mem_dataClusters.mp hx
    rw [Sector.link_of_lt _ hin.lt]
    exact h.fat _ hin.1
  refine ⟨fun i p => ?_, congrArg some h.cwd.symm, ?_, rfl⟩
  · cases hp : (forestOf fs.disk).dirAt p with
    | none => rfl
    | some d =>
        refine (nodeAt_eq_none.mpr ?_).symm
        rw [h.reachable (Forest.reachable_of_dirAt hp)]
        exact h.not_live i
  · rw [freeCount, Finset.filter_true_of_mem hall, card_dataClusters]
    rfl

/-- A file is written into a new directory, listed and printed. -/
def smallSession : List Call :=
  [.makeDirectory strA, .changeDirectory strA, .writeFile (fatName strHi strTxt) strHi, .listFiles,
    .catFile strHi]

theorem plain_smallSession : Guarded Catalog.step Catalog.Plain smallSession Catalog.blank := by
  have hplain : ∀ {call : Call} {c : Catalog}, (∀ name, call.newName = some name → name 0 ≠ 0xE5) →
      (∀ filename, call ≠ .catFile filename) → Catalog.Plain call c :=
    fun hname hcat => ⟨hname, fun filename _ _ h => absurd h (hcat filename)⟩
  refine guarded_cons (hplain ?_ nofun) rfl (guarded_cons (hplain nofun nofun) rfl
    (guarded_cons (hplain ?_ nofun) rfl (guarded_cons (hplain nofun nofun) rfl
      ⟨⟨nofun, fun _ i n _ _ hentry => ?_⟩, fun _ _ => trivial⟩)))
  · rintro _ ⟨⟩
    decide
  · rintro _ ⟨⟩
    decide
  · have hfiles : ∀ i, (((smallSession.take 4).foldl (fun c call => Catalog.exec call c)
        Catalog.blank).entry i).any Node.isDir = false := by
      decide +kernel
    have hi := hfiles i
    rw [show ((smallSession.take 4).foldl (fun c call => Catalog.exec call c)
      Catalog.blank).entry i = some n from hentry] at hi
    exact hi

theorem catalog_runs_smallSession :
    ∃ fs' c', runs exec smallSession blankFs = .ok fs' ∧
      runs Catalog.step smallSession Catalog.blank = .ok c' ∧ WellFormed fs' ∧ Depicts fs' c' :=
  (catalog_runs formatted_blankFs.wellFormed).2 Catalog.blank formatted_blankFs.depicts_blank _
    plain_smallSession

end FirstKernel
