import Mathlib
import RefSite.Item.Load
import RefSite.Files.Search
import RefSite.Proofs.Files.Place

namespace RefSite

namespace Entry

mutual

/-- In every folder of the tree the names are distinct. -/
def hasDistinctNames : Entry → Bool
  | folder es => decide (es.map Prod.fst).Nodup && haveDistinctNames es
  | _ => true

def haveDistinctNames : List (String × Entry) → Bool
  | [] => true
  | (_, e) :: es => hasDistinctNames e && haveDistinctNames es

end

theorem distinct_folder {es : List (String × Entry)} (h : (folder es).hasDistinctNames = true) :
    (es.map Prod.fst).Nodup ∧ haveDistinctNames es = true := by
  rw [hasDistinctNames, Bool.and_eq_true, decide_eq_true_eq] at h
  exact h

theorem distinct_cons {n : String} {e : Entry} {es : List (String × Entry)}
    (h : haveDistinctNames ((n, e) :: es) = true) :
    e.hasDistinctNames = true ∧ haveDistinctNames es = true := by
  rwa [haveDistinctNames, Bool.and_eq_true] at h

theorem at_cons_self (m : String) (e : Entry) (es : List (String × Entry)) (ns : List String) :
    (folder ((m, e) :: es)).at? (m :: ns) = e.at? ns := by
  rw [at_cons_folder, List.lookup_cons_self, Option.bind_some]

theorem at_cons_of_ne {m n : String} (h : n ≠ m) (e : Entry) (es : List (String × Entry))
    (ns : List String) : (folder ((m, e) :: es)).at? (n :: ns) = (folder es).at? (n :: ns) := by
  rw [at_cons_folder, at_cons_folder, List.lookup_cons, beq_false_of_ne h]

theorem at_of_notMem {m : String} {es : List (String × Entry)} (h : m ∉ es.map Prod.fst)
    (ns : List String) : (folder es).at? (m :: ns) = none := by
  have hlookup : es.lookup m = none := by
    rw [List.lookup_eq_none_iff]
    intro x hx
    have hne : m ≠ x.1 := by
      rintro rfl
      exact h (List.mem_map_of_mem hx)
    exact bne_iff_ne.2 hne
  rw [at_cons_folder, hlookup, Option.bind_none]

mutual

theorem mem_descendants (e : Entry) (he : e.hasDistinctNames = true) (above w : List String)
    (x : Entry) : (w, x) ∈ e.descendants above ↔
      ∃ n ns, w = above ++ n :: ns ∧ e.at? (n :: ns) = some x := by
  cases e with
  | file _ => simp [descendants, at?]
  | link _ => simp [descendants, at?]
  | folder es =>
    obtain ⟨hnodup, hes⟩ := distinct_folder he
    rw [descendants, mem_allDescendants es hnodup hes]

theorem mem_allDescendants (es : List (String × Entry)) (hnodup : (es.map Prod.fst).Nodup)
    (hes : haveDistinctNames es = true) (above w : List String) (x : Entry) :
    (w, x) ∈ allDescendants above es ↔
      ∃ n ns, w = above ++ n :: ns ∧ (folder es).at? (n :: ns) = some x := by
  match es with
  | [] => simp [allDescendants, at?]
  | (m, e) :: es =>
    obtain ⟨hm, hnodup⟩ := List.nodup_cons.1 hnodup
    obtain ⟨he, hes⟩ := distinct_cons hes
    rw [allDescendants, List.mem_append, List.mem_cons, Prod.mk.injEq,
      mem_descendants e he, mem_allDescendants es hnodup hes]
    -- an entry is the first one, below it, or under another name; names being distinct, a way
    -- with another name passes the first entry by
    constructor
    · rintro ((⟨rfl, rfl⟩ | ⟨n, ns, rfl, hx⟩) | ⟨n, ns, rfl, hx⟩)
      · exact ⟨m, [], rfl, by rw [at_cons_self, at_nil]⟩
      · exact ⟨m, n :: ns, by rw [List.append_assoc, List.singleton_append],
          by rw [at_cons_self, hx]⟩
      · have hne : n ≠ m := by
          rintro rfl
          rw [at_of_notMem hm] at hx
          exact nomatch hx
        exact ⟨n, ns, rfl, by rw [at_cons_of_ne hne, hx]⟩
    · rintro ⟨n, ns, rfl, hx⟩
      by_cases hn : n = m
      · subst hn
        rw [at_cons_self] at hx
        cases ns with
        | nil =>
          rw [at_nil] at hx
          exact .inl (.inl ⟨rfl, (Option.some.inj hx).symm⟩)
        | cons k ks =>
          exact .inl (.inr ⟨k, ks, by rw [List.append_assoc, List.singleton_append], hx⟩)
      · rw [at_cons_of_ne hn] at hx
        exact .inr ⟨n, ns, rfl, hx⟩

end

mutual

/-- No entry is listed twice. -/
theorem nodup_descendants (e : Entry) (he : e.hasDistinctNames = true) (above : List String) :
    ((e.descendants above).map Prod.fst).Nodup := by
  cases e with
  | file _ => exact List.nodup_nil
  | link _ => exact List.nodup_nil
  | folder es =>
    obtain ⟨hnodup, hes⟩ := distinct_folder he
    exact nodup_allDescendants es hnodup hes above

theorem nodup_allDescendants (es : List (String × Entry)) (hnodup : (es.map Prod.fst).Nodup)
    (hes : haveDistinctNames es = true) (above : List String) :
    ((allDescendants above es).map Prod.fst).Nodup := by
  match es with
  | [] => exact List.nodup_nil
  | (m, e) :: es =>
    obtain ⟨hm, hnodup⟩ := List.nodup_cons.1 hnodup
    obtain ⟨he, hes⟩ := distinct_cons hes
    have hbelow {w : List String} (hw : w ∈ (e.descendants (above ++ [m])).map Prod.fst) :
        ∃ n ns, w = above ++ m :: n :: ns := by
      obtain ⟨⟨w, x⟩, hx, rfl⟩ := List.mem_map.1 hw
      obtain ⟨n, ns, rfl, -⟩ := (mem_descendants e he _ _ _).1 hx
      exact ⟨n, ns, by rw [List.append_assoc, List.singleton_append]⟩
    have hbeside {w : List String} (hw : w ∈ (allDescendants above es).map Prod.fst) :
        ∃ n ns, n ≠ m ∧ w = above ++ n :: ns := by
      obtain ⟨⟨w, x⟩, hmem, rfl⟩ := List.mem_map.1 hw
      obtain ⟨n, ns, rfl, hx⟩ := (mem_allDescendants es hnodup hes _ _ _).1 hmem
      refine ⟨n, ns, ?_, rfl⟩
      rintro rfl
      rw [at_of_notMem hm] at hx
      exact nomatch hx
    rw [allDescendants, List.map_append, List.map_cons]
    refine List.Nodup.append ?_ (nodup_allDescendants es hnodup hes above) ?_
    · refine List.nodup_cons.2 ⟨fun hw => ?_, nodup_descendants e he _⟩
      obtain ⟨n, ns, heq⟩ := hbelow hw
      simp at heq
    · -- what stands under this name and under the others starts differently
      intro w hw hw'
      obtain ⟨n, ns, hne, rfl⟩ := hbeside hw'
      obtain heq | hw := List.mem_cons.1 hw
      · simp [hne] at heq
      · obtain ⟨k, ks, heq⟩ := hbelow hw
        simp [hne] at heq

end

end Entry

namespace Disk

variable {d d' : Disk} {folder : Path} {e e' : Entry} {ps qs : List Path}

/-- The name of a model file, by its ending. -/
theorem isModelName_iff (name : String) :
    isModelName name = true ↔ ∃ ending ∈ modelEndings, ending.toList <:+ name.toList := by
  simp [isModelName]

/-- The path leads from the folder down to an entry that has the name of a model file. -/
def LeadsToModel (folder : Path) (e : Entry) (p : Path) : Prop :=
  ∃ way name x, e.at? (way ++ [name]) = some x ∧
    (∃ ending ∈ modelEndings, ending.toList <:+ name.toList) ∧
    p = folder.join ⟨.relative, way ++ [name]⟩

theorem mem_modelPaths (he : e.hasDistinctNames = true) (p : Path) :
    p ∈ modelPaths folder e ↔ LeadsToModel folder e p := by
  rw [modelPaths, List.mem_map]
  constructor
  · rintro ⟨⟨w, x⟩, hx, rfl⟩
    obtain ⟨hx, hname⟩ := List.mem_filter.1 hx
    obtain ⟨n, ns, rfl, hat⟩ := (Entry.mem_descendants e he _ _ _).1 hx
    have hlast := List.dropLast_concat_getLast (List.cons_ne_nil n ns)
    rw [List.nil_append, List.getLast?_eq_some_getLast (List.cons_ne_nil n ns), Option.getD_some,
      isModelName_iff] at hname
    rw [← hlast] at hat
    refine ⟨_, _, x, hat, hname, ?_⟩
    rw [hlast]
    rfl
  · rintro ⟨way, name, x, hat, hname, rfl⟩
    refine ⟨(way ++ [name], x), List.mem_filter.2 ⟨?_, ?_⟩, rfl⟩
    · rw [Entry.mem_descendants e he]
      obtain ⟨n, ns, hcons⟩ := List.exists_cons_of_ne_nil (by simp : way ++ [name] ≠ [])
      exact ⟨n, ns, hcons, hcons ▸ hat⟩
    · rwa [List.getLast?_concat, Option.getD_some, isModelName_iff]

theorem nodup_keys_modelPaths (he : e.hasDistinctNames = true) (folder : Path) :
    ((modelPaths folder e).map Path.key).Nodup := by
  let found := (e.descendants []).filter fun x => isModelName (x.1.getLast?.getD "")
  have hkeys : (modelPaths folder e).map Path.key =
      (found.map Prod.fst).map fun w => folder.key ++ w := by
    rw [modelPaths, List.map_map, List.map_map]
    exact List.map_congr_left fun x _ => Path.key_join (q := ⟨.relative, x.1⟩) rfl
  have hways : (found.map Prod.fst).Nodup :=
    (Entry.nodup_descendants e he []).sublist (List.filter_sublist.map Prod.fst)
  rw [hkeys]
  exact hways.map fun _ _ h => List.append_cancel_left h

theorem before_iff (p q : Path) : p.before q = true ↔ p.key < q.key := decide_eq_true_iff

theorem pairwise_sortPaths (hps : (ps.map Path.key).Nodup) :
    (sortPaths ps).Pairwise fun p q => p.before q = true := by
  have hle (p q : Path) : (!q.before p) = true ↔ p.key ≤ q.key := by
    rw [Bool.not_eq_true', Bool.eq_false_iff, ne_eq, before_iff, not_lt]
  have hsorted : (sortPaths ps).Pairwise fun p q => (!q.before p) = true := by
    refine List.pairwise_mergeSort (fun p q r hpq hqr => ?_) (fun p q => ?_) ps
    · rw [hle] at hpq hqr ⊢
      exact hpq.trans hqr
    · rw [Bool.or_eq_true, hle, hle]
      exact le_total _ _
  have hdistinct : ((sortPaths ps).map Path.key).Nodup :=
    ((List.mergeSort_perm ps _).map Path.key).nodup_iff.2 hps
  rw [List.Nodup, List.pairwise_map] at hdistinct
  refine (hsorted.and hdistinct).imp fun {p q} h => ?_
  rw [hle] at h
  exact (before_iff p q).2 (lt_of_le_of_ne h.1 h.2)

theorem nodup_of_pairwise_before (hps : ps.Pairwise fun p q => p.before q = true) : ps.Nodup := by
  refine hps.imp fun {p q} hpq => ?_
  rintro rfl
  exact lt_irrefl p.key ((before_iff p p).1 hpq)

/-- Two lists in strict order are equal if they have the same members. -/
theorem eq_of_pairwise_before (hps : ps.Pairwise fun p q => p.before q = true)
    (hqs : qs.Pairwise fun p q => p.before q = true) (hmem : ∀ p, p ∈ ps ↔ p ∈ qs) : ps = qs := by
  have hperm : ps.Perm qs := (List.perm_ext_iff_of_nodup (nodup_of_pairwise_before hps)
    (nodup_of_pairwise_before hqs)).2 hmem
  refine List.Perm.eq_of_pairwise (fun p q _ _ hpq hqp => ?_) hps hqs hperm
  rw [before_iff] at hpq hqp
  exact absurd hqp (lt_asymm hpq)

theorem modelFiles_of_entry (he : d.entry? folder = .ok (some e)) :
    d.modelFiles folder = .ok (sortPaths (modelPaths folder e)) := by
  rw [modelFiles, he]

theorem mem_sortPaths (he : e.hasDistinctNames = true) (p : Path) :
    p ∈ sortPaths (modelPaths folder e) ↔ LeadsToModel folder e p := by
  rw [sortPaths, List.mem_mergeSort, mem_modelPaths he]

/-- The search finds the model files below a folder. Its result is in strict part-by-part order, so
that nothing is in it twice, and it has exactly the paths that lead from the folder down to an entry
with the name of a model file, be it a file, a link or a folder. Nothing else counts: where the same
names are found below the folder, in whatever order they are listed, the result is the same. -/
theorem model_files_are_found (he : d.entry? folder = .ok (some e))
    (hnames : e.hasDistinctNames = true) :
    ∃ ps, d.modelFiles folder = .ok ps ∧ (ps.Pairwise fun p q => p.before q = true) ∧ ps.Nodup ∧
      (∀ p, p ∈ ps ↔ LeadsToModel folder e p) ∧
      ∀ (d' : Disk) (e' : Entry), d'.entry? folder = .ok (some e') → e'.hasDistinctNames = true →
        (∀ way, (e'.at? way).isSome = (e.at? way).isSome) → d'.modelFiles folder = .ok ps := by
  have hsorted {e : Entry} (he : e.hasDistinctNames = true) :
      (sortPaths (modelPaths folder e)).Pairwise fun p q => p.before q = true :=
    pairwise_sortPaths (nodup_keys_modelPaths he folder)
  refine ⟨_, modelFiles_of_entry he, hsorted hnames, nodup_of_pairwise_before (hsorted hnames),
    mem_sortPaths hnames, ?_⟩
  intro d' e' he' hnames' hsame
  have hleads (p : Path) : LeadsToModel folder e' p ↔ LeadsToModel folder e p := by
    simp only [LeadsToModel, exists_and_right, ← Option.isSome_iff_exists, hsame]
  -- strict order leaves no choice once the members are known
  rw [modelFiles_of_entry he', eq_of_pairwise_before (hsorted hnames') (hsorted hnames) fun p => ?_]
  rw [mem_sortPaths hnames', mem_sortPaths hnames, hleads]

/-- A disk with one folder that has the given entries. -/
def diskOf (es : List (String × Entry)) : Disk := ⟨.folder [("m", .folder es)], []⟩

def modelFolder : Path := ⟨.root, ["m"]⟩

def scattered : List (String × Entry) :=
  [("b-x.api.yml", .file "".toUTF8), ("notes.yml", .file "".toUTF8),
    ("b", .folder [("d.api.yaml", .file "".toUTF8), ("c.api.json", .link "gone")])]

/-- Files in a folder come before a file whose name continues that of the folder, and the order in
which the entries are listed does not matter. -/
theorem scattered_models_are_found :
    let files : List Path := [["b", "c.api.json"], ["b", "d.api.yaml"], ["b-x.api.yml"]].map
      fun way => modelFolder.join ⟨.relative, way⟩
    (Entry.folder scattered).hasDistinctNames = true ∧
      (diskOf scattered).modelFiles modelFolder = .ok files ∧
      (diskOf scattered.reverse).modelFiles modelFolder = .ok files := by
  intro files
  have hnames : (Entry.folder scattered).hasDistinctNames = true := by decide +kernel
  have hentry : Disk.entry? (diskOf scattered) modelFolder = .ok (some (.folder scattered)) := rfl
  obtain ⟨ps, hps, hsorted, -, hmem, hsame⟩ := model_files_are_found hentry hnames
  have hpaths : modelPaths modelFolder (.folder scattered) =
      [["b-x.api.yml"], ["b", "d.api.yaml"], ["b", "c.api.json"]].map
        fun way => modelFolder.join ⟨.relative, way⟩ := by decide +kernel
  obtain rfl : ps = files := by
    refine eq_of_pairwise_before hsorted (by decide +kernel) fun p => ?_
    rw [hmem, ← mem_modelPaths hnames, hpaths]
    simp only [files, List.map_cons, List.map_nil, List.mem_cons, List.not_mem_nil, or_false]
    tauto
  refine ⟨hnames, hps, hsame _ (.folder scattered.reverse) rfl (by decide +kernel) fun way => ?_⟩
  cases way with
  | nil => rfl
  | cons n ns =>
    have hlookup : scattered.reverse.lookup n = scattered.lookup n := by
      by_cases hfirst : n = "b-x.api.yml"
      · subst hfirst
        rfl
      · by_cases hsecond : n = "notes.yml"
        · subst hsecond
          rfl
        · simp [scattered, List.lookup_cons, beq_false_of_ne hfirst, beq_false_of_ne hsecond]
    rw [Entry.at_cons_folder, Entry.at_cons_folder, hlookup]

/-- A folder with the name of a model file counts as one, although it cannot be read, so that no
model is loaded from the folder that it is in. -/
theorem folder_counts_as_model :
    let disk := diskOf [("x.api.yml", .folder [])]
    let path := modelFolder.child "x.api.yml"
    disk.modelFiles modelFolder = .ok [path] ∧ disk.isFolder path = .ok true ∧
      (Item.loadModel disk [path] "").result = .error (.file .isFolder) := by
  intro disk path
  have hpaths : modelPaths modelFolder (.folder [("x.api.yml", .folder [])]) = [path] := by
    decide +kernel
  have hfound : disk.modelFiles modelFolder = .ok [path] := by
    rw [modelFiles_of_entry (e := .folder [("x.api.yml", .folder [])]) rfl, hpaths, sortPaths,
      List.mergeSort_singleton]
  exact ⟨hfound, rfl, rfl⟩

end Disk

end RefSite
