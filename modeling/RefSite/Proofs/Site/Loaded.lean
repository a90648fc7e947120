import RefSite.Proofs.Site.Showing
import RefSite.Proofs.Site.Steps

namespace RefSite.Site

open Failure

variable {Event : Type} {s : Site Event} {output : Path} {i : Item}

/-- Every page of a tree that can be shown is of a kind that has pages. -/
theorem isShowable_of_mem_pages {p : Placed} (h : p.IsShowable)
    (hpage : ∃ k, p.self.kind.kind? = some k ∧ k.HasPage) :
    ∀ q ∈ p.pages, q.IsShowable ∧ ∃ k, q.self.kind.kind? = some k ∧ k.HasPage := by
  induction p using Placed.pages_induction with
  | step p ih =>
    rw [Placed.pages_eq]
    refine List.forall_mem_cons.2 ⟨⟨h, hpage⟩, fun q hq => ?_⟩
    obtain ⟨c, hc, hq⟩ := List.mem_flatMap.1 hq
    have hshow := h.of_lists (Placed.lists_of_mem_children hc)
    obtain ⟨k, hk⟩ := hshow.place.self.kind?
    exact ih c hc hshow ⟨k, hk, Page.hasPage_of_mem_children hc hk⟩ q hq

/-- The run fails at a node of a comment whose kind is not shown, at a second item with the same
file, or at a file. -/
def IsRejection (f : Failure) : Prop :=
  f.IsCommentFault ∨ (∃ name first second, f = .sharedFile name first second) ∨ ∃ g, f = .file g

theorem Refused.isRejection {p : Placed} {r : Run Event} {f : Failure} {d : Disk}
    (h : Refused s output p r f d)
    (htext : Meets IsCommentFault (fun _ => True) (s.pageText p).result) : IsRejection f := by
  cases h with
  | unbuilt h => exact .inl (htext.of_error h)
  | shared _ _ => exact .inr (.inl ⟨_, _, _, rfl⟩)
  | unwritten _ _ _ => exact .inr (.inr ⟨_, rfl⟩)

theorem run_prepare_of_no_plugins (h : ∀ c, s.config? = some c → c.plugins = [])
    (output : Path) (r : Run Event) : (s.prepare output).run r = (.ok (), r) := by
  unfold prepare
  split
  · rfl
  · next c hc =>
    rw [h c hc]
    rfl

theorem run_setUp_of_no_plugins (h : ∀ c, s.config? = some c → c.plugins = [])
    (output : Path) (r : Run Event) : (s.setUp output).run r = (s.clear output).run r :=
  run_bind_ok (run_prepare_of_no_plugins h output r) _

/-- No feature is active when everything is set up that was not active before. -/
theorem setUp_active_of_no_plugins (h : ∀ c, s.config? = some c → c.plugins = [])
    {r start : Run Event} (hs : (s.setUp output).run r = (.ok (), start)) :
    start.active = r.active := by
  have hkeeps : Keeps (fun r => r.active) (s.clear output) :=
    .clear (fun _ _ => rfl) (fun _ _ => rfl) s output
  have hk := hkeeps r
  rw [← run_setUp_of_no_plugins h, hs] at hk
  exact hk

/-- A run without plugins over a model that can be shown writes all pages, or it is rejected. -/
theorem generate_of_isShowable (hplugins : ∀ c, s.config? = some c → c.plugins = [])
    (hshow : s.model.IsShowable) (hpage : ∃ k, s.model.self.kind.kind? = some k ∧ k.HasPage)
    (output : Path) (disk : Disk) :
    Meets IsRejection (fun _ => True) (s.generate output disk none).1 := by
  let begun : Run Event := { disk, active := none }
  have hprepare := run_prepare_of_no_plugins hplugins output begun
  rcases hclear : (s.clear output).run begun with ⟨x, start⟩
  cases x with
  | error f =>
    have hg : s.generate output disk none = (.error f, start) :=
      (run_bind_ok hprepare _).trans (run_bind_error hclear _)
    rw [hg]
    exact .inr (.inr (clear_error hclear))
  | ok _ =>
    have hs : (s.setUp output).run begun = (.ok (), start) :=
      (run_bind_ok hprepare _).trans hclear
    have hactive : start.active = none := setUp_active_of_no_plugins hplugins hs
    obtain ⟨r₁, r, hall, -, -, hg⟩ | ⟨done, p, rest, f, r₁, r, he, -, hp, -, hg⟩ :=
      generate_cases hs
    · -- no feature is active, so no hook can fail
      have hhook : hookResult r₁ = .ok () := by
        rw [hookResult, hall.active, hactive]
      rw [hg, hhook]
      trivial
    · have hmem : p ∈ s.model.pages := by
        rw [he]
        exact List.mem_append_right _ List.mem_cons_self
      obtain ⟨hp', k, hk, hkpage⟩ := isShowable_of_mem_pages hshow hpage p hmem
      rw [hg]
      exact hp.isRejection (Page.meets_text _ hshow.place hp' hk hkpage)

/-- Whatever is loaded can be shown or is rejected. A run without plugins over a model that was read
from files writes all pages, or fails at a node of a comment whose kind is not shown, at a second
item with the same file, or at a file. This needs links whose texts are texts, and addresses and
numbers of overloads that can be written: they are not checked when they are read. -/
theorem loaded_models_are_shown_or_rejected {d : Disk} {ps : List Path} {name : String}
    (hload : (Item.loadModel d ps name).result = .ok i) (hmodel : s.model = i.placed)
    (hplugins : ∀ c, s.config? = some c → c.plugins = [])
    (hlinks : ∀ e ∈ i.declarations, ∀ c, e.comment = some c → c.HasShowableLinks)
    (hoverloads : ∀ e ∈ i.declarations, Place.hasWritableOverload e = true)
    (output : Path) (disk : Disk) :
    (∃ written, (s.generate output disk none).1 = .ok written) ∨
      ∃ f, (s.generate output disk none).1 = .error f ∧ IsRejection f := by
  have hread : i.IsRead := (Item.meets_loadModel d ps name).of_ok hload
  have hshow : s.model.IsShowable := by
    refine ⟨[], i, hmodel, (fun e he => nomatch he), fun e he => ?_⟩
    have hcomment (c : Comment) (hc : e.comment = some c) : c.IsShowable :=
      ((hread e he).comment c hc).isShowable (hlinks e he c hc)
    exact ⟨(hread e he).kind, hcomment, hoverloads e he⟩
  have hpage : ∃ k, s.model.self.kind.kind? = some k ∧ k.HasPage := by
    obtain ⟨is, -, hi⟩ := Logged.bind_eq_ok.1 hload
    cases hi
    rw [hmodel]
    exact ⟨.model, rfl, fun name => ⟨_, rfl⟩⟩
  have hmeets := generate_of_isShowable hplugins hshow hpage output disk
  cases hg : (s.generate output disk none).1 with
  | ok written => exact .inl ⟨written, rfl⟩
  | error f => exact .inr ⟨f, rfl, hmeets.of_error hg⟩

/-- A file that holds one package makes a model of this package. -/
theorem loadModel_of_package {d : Disk} {p : Path} {text : String} {es : Entries}
    (htext : d.readText p = .ok text) (hes : Yaml.load text = .ok (.map es))
    (hone : Entries.get? es "packages" = none) (hi : Item.ofValue (some p) (.map es) = .ok i)
    (hk : i.self.kind = .known .package) (name : String) :
    (Item.loadModel d [p] name).result = .ok (.mk { kind := .known .model, name } [i]) := by
  have hmapping : Item.readMapping d p = .ok es := by
    rw [Item.readMapping_of_text htext, hes]
    rfl
  have hraw : Item.rawPackages p es = .ok [.map es] := by
    rw [Item.rawPackages, hone]
    rfl
  have hpackage : (Item.packageOfValue p (.map es)).result = .ok i := by
    refine Logged.bind_eq_ok.2 ⟨i, hi, ?_⟩
    rw [hk]
    rfl
  have hpackages : (Item.packagesOfValues p [.map es]).result = .ok [i] :=
    Logged.bind_eq_ok.2 ⟨i, hpackage, Logged.bind_eq_ok.2 ⟨[], rfl, rfl⟩⟩
  have hall : (Item.loadPackages d [p]).result = .ok [i] := by
    refine Logged.bind_eq_ok.2 ⟨es, hmapping, Logged.bind_eq_ok.2 ⟨[.map es], hraw, ?_⟩⟩
    exact Logged.bind_eq_ok.2 ⟨[i], hpackages, Logged.bind_eq_ok.2 ⟨[], rfl, rfl⟩⟩
  exact Logged.bind_eq_ok.2 ⟨[i], hall, rfl⟩

/-- The text of a file with a package whose comment is a link. -/
def linkText (label : String) : String :=
  "\x7bkind: Package, docComment: \x7bsummary: [\x7bkind: LinkTag, linkText: " ++ label ++
    ", url: x\x7d]\x7d\x7d"

def linkPath : Path := ⟨.root, ["p.api.yml"]⟩

def linkDisk (label : String) : Disk where
  root := .folder [("p.api.yml", .file (linkText label).toUTF8), ("styles.css", .file .empty)]
  here := []

def linkFields (label : Value) : Entries :=
  [(.text "kind", .text "LinkTag"), (.text "linkText", label), (.text "url", .text "x")]

def linkEntries (label : Value) : Entries :=
  [(.text "kind", .text "Package"),
    (.text "docComment", .map [(.text "summary", .list [.map (linkFields label)])])]

def linkNode (label : Value) : Comment.Node := .link "LinkTag" label (.text "x") .null

def linkPackage (label : Value) : Item :=
  let comment : Comment := ⟨[linkNode label], none⟩
  .mk { kind := .known .package, name := "", comment } [.mk Item.unnamedEntryPoint []]

def linkModel (label : Value) : Item :=
  .mk { kind := .known .model, name := "" } [linkPackage label]

def linkSite (label : Value) : Site Unit :=
  ⟨(linkModel label).placed, none, .site, [], ⟨.root, ["styles.css"]⟩⟩

/-- The label of the link in a package that was read. -/
def linkLabel? : Except Failure Value → Option Value
  | .ok (.map [(.text "kind", .text "Package"), (.text "docComment", .map
      [(.text "summary", .list [.map [(.text "kind", .text "LinkTag"), (.text "linkText", label),
        (.text "url", .text "x")]])])]) => some label
  | _ => none

theorem eq_of_linkLabel {x : Except Failure Value} {label : Value} {is : Value → Bool}
    (his : ∀ v, is v = true → v = label) (h : (linkLabel? x).any is = true) :
    x = .ok (.map (linkEntries label)) := by
  unfold linkLabel? at h
  split at h
  · next v =>
    obtain rfl := his v h
    rfl
  · exact nomatch h

theorem ofValue_linkEntries (source : Option Path) (label : Value) :
    Item.ofValue source (.map (linkEntries label)) = .ok (linkPackage label) := by
  let comment : Comment := ⟨[linkNode label], none⟩
  let fields : Entries := [(.text "summary", .list [.map (linkFields label)])]
  have hnode : Comment.nodeOfValue source (.map (linkFields label)) = .ok (linkNode label) := by
    rw [Comment.nodeOfValue_map]
    rfl
  have hnodes : Comment.givenNodesOf source (.list [.map (linkFields label)]) =
      .ok [linkNode label] := by
    rw [Comment.givenNodesOf_list, Comment.nodesOfValues, hnode, Comment.nodesOfValues]
  have hcomment : Comment.ofEntries source fields = .ok comment := by
    have hsummary : Entries.field fields "summary" = .list [.map (linkFields label)] := rfl
    rw [Comment.ofEntries, hsummary, hnodes]
    rfl
  have hvalue : Comment.ofValue source (Entries.field (linkEntries label) "docComment") =
      .ok (some comment) := by
    change (Comment.ofEntries source fields).map some = _
    rw [hcomment]
    rfl
  have hdeclaration : Item.declarationOf source (linkEntries label) =
      .ok (linkPackage label).self := by
    simp only [Item.declarationOf, hvalue]
    rfl
  have hmembers : (Item.membersField (linkEntries label)).givenElements = .ok [] := rfl
  rw [Item.ofValue_map, hdeclaration, hmembers]
  dsimp only
  rw [Item.ofValues]
  rfl

/-- The file is loaded as the model that its link stands in. -/
theorem loadModel_linkDisk {written : String} {label : Value} {is : Value → Bool}
    (his : ∀ v, is v = true → v = label)
    (hload : (linkLabel? (Yaml.load (linkText written))).any is = true)
    (htext : ((linkDisk written).readText linkPath).toOption = some (linkText written)) :
    (Item.loadModel (linkDisk written) [linkPath] "").result = .ok (linkModel label) := by
  have hread : (linkDisk written).readText linkPath = .ok (linkText written) := by
    cases hr : (linkDisk written).readText linkPath with
    | ok s =>
      rw [hr] at htext
      cases htext
      rfl
    | error f =>
      rw [hr] at htext
      exact nomatch htext
  exact loadModel_of_package hread (eq_of_linkLabel his hload) rfl (ofValue_linkEntries _ _) rfl ""

def linkOutput : Path := ⟨.root, ["site"]⟩

def isQuotedDigit : Value → Bool
  | .text "5" => true
  | _ => false

theorem eq_of_isQuotedDigit (v : Value) (h : isQuotedDigit v = true) : v = .text "5" := by
  unfold isQuotedDigit at h
  split at h
  · rfl
  · cases h

/-- A link whose text is a digit in quotes is shown. -/
theorem quoted_digit_is_shown :
    (Item.loadModel (linkDisk "'5'") [linkPath] "").result = .ok (linkModel (.text "5")) ∧
      ((∃ written, ((linkSite (.text "5")).generate linkOutput (linkDisk "'5'") none).1 =
          .ok written) ∨
        ∃ f, ((linkSite (.text "5")).generate linkOutput (linkDisk "'5'") none).1 = .error f ∧
          IsRejection f) := by
  have hload : (Item.loadModel (linkDisk "'5'") [linkPath] "").result =
      .ok (linkModel (.text "5")) :=
    loadModel_linkDisk eq_of_isQuotedDigit (by decide +kernel) (by decide +kernel)
  have hdeclarations : (linkModel (.text "5")).declarations =
      [(linkModel (.text "5")).self, (linkPackage (.text "5")).self, Item.unnamedEntryPoint] := rfl
  have hlink : Comment.ShowsLink (.text "5") (.text "x") := by
    rw [Comment.ShowsLink, if_pos (by decide)]
    exact ⟨⟨"5", rfl⟩, "x", rfl⟩
  have hlinks : ∀ e ∈ (linkModel (.text "5")).declarations, ∀ c, e.comment = some c →
      c.HasShowableLinks := by
    rw [hdeclarations]
    intro e he c hc
    simp only [List.mem_cons, List.not_mem_nil, or_false] at he
    obtain rfl | rfl | rfl := he
    · cases hc
    · cases hc
      refine ⟨List.forall_mem_singleton.2 hlink, fun ns hns => ?_⟩
      cases hns
    · cases hc
  have hoverloads : ∀ e ∈ (linkModel (.text "5")).declarations,
      Place.hasWritableOverload e = true := by
    rw [hdeclarations]
    decide +kernel
  have hplugins : ∀ c, (linkSite (.text "5")).config? = some c → c.plugins = [] := by
    intro c hc
    cases hc
  exact ⟨hload, loaded_models_are_shown_or_rejected hload rfl hplugins hlinks hoverloads linkOutput
    (linkDisk "'5'")⟩

/-- The run fails because there is no content where there has to be some. -/
def stopsAtContent : Except Failure (List Path) → Bool
  | .error .noElements => true
  | _ => false

def isDigit : Value → Bool
  | .int 5 => true
  | _ => false

theorem eq_of_isDigit (v : Value) (h : isDigit v = true) : v = .int 5 := by
  unfold isDigit at h
  split at h
  · rfl
  · cases h

/-- A file with a package whose name is written as the two halves of a pair. -/
def pairDisk : Disk where
  root :=
    let name := "\x22\\ud83d\\ude00\x22"
    .folder [("p.api.yml", .file ("\x7bkind: Package, name: " ++ name ++ "\x7d").toUTF8)]
  here := []

/-- The reading stops at half of a pair. -/
def stopsAtSurrogate : Except Failure Item → Bool
  | .error .surrogate => true
  | _ => false

/-- A link whose text is a digit without quotes is loaded, and the run fails at it. A name with half
of a surrogate pair is no model fault either: it has a failure of its own. -/
theorem number_as_link_text_stops_run :
    ((Item.loadModel (linkDisk "5") [linkPath] "").result = .ok (linkModel (.int 5)) ∧
      (linkSite (.int 5)).model = (linkModel (.int 5)).placed ∧
      ((linkSite (.int 5)).generate linkOutput (linkDisk "5") none).1 = .error .noElements) ∧
    (Item.loadModel pairDisk [linkPath] "").result = .error .surrogate := by
  have hstops : stopsAtContent
      ((linkSite (.int 5)).generate linkOutput (linkDisk "5") none).1 = true := by
    decide +kernel
  have hload : (Item.loadModel (linkDisk "5") [linkPath] "").result = .ok (linkModel (.int 5)) :=
    loadModel_linkDisk eq_of_isDigit (by decide +kernel) (by decide +kernel)
  have hhalf : stopsAtSurrogate (Item.loadModel pairDisk [linkPath] "").result = true := by
    decide +kernel
  refine ⟨⟨hload, rfl, ?_⟩, ?_⟩
  · unfold stopsAtContent at hstops
    split at hstops
    · next h => exact h
    · exact nomatch hstops
  · unfold stopsAtSurrogate at hhalf
    split at hhalf
    · next h => exact h
    · exact nomatch hhalf

end RefSite.Site
