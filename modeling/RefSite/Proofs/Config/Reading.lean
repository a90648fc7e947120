import RefSite.Config.Load
import RefSite.Proofs.Value.Parts

namespace RefSite

def Failure.IsConfigFault (f : Failure) : Prop := ∃ fault, f = .config fault

/-- A result is itself as wanted, when the failures are allowed. -/
theorem Meets.of_failures {ε α : Type} {allowed : ε → Prop} {x : Except ε α}
    (h : ∀ f, x = .error f → allowed f) : Meets allowed (fun a => x = .ok a) x := by
  cases x with
  | ok a => exact rfl
  | error f => exact h f rfl

namespace Config

open Value

/-- The keys of the settings that are read. -/
def settingKeys : List String := ["newline_kind", "stylesheet", "plugins", "header_logo_href"]

/-- Something keeps the settings from being read, with a failure that is no fault of the settings.
The plugins are a value that has no elements; they, or one of them, hold themselves and are no
longer laid out; or a setting holds a number with too many digits to be written. -/
inductive Hinders (es : Entries) : Failure → Prop where
  | noElements (hgiven : (es.field "plugins").truthy = true)
      (hnone : (es.field "plugins").elements? = none) : Hinders es .noElements
  | spent (h : (es.field "plugins").isSpent = true) : Hinders es .endless
  | spentPlugin {xs : List Value} {x : Value} (hxs : (es.field "plugins").elements? = some xs)
      (hx : x ∈ xs) (h : x.isSpent = true) : Hinders es .endless
  | longNumber {key : String} (hkey : key ∈ settingKeys) (h : (es.field key).HasLongNumber) :
      Hinders es .longNumber

/-- A setting is refused, or a number in it cannot be written. -/
def SettingFault (v : Value) (f : Failure) : Prop :=
  f.IsConfigFault ∨ v.WritingFault f

/-- A plugin is not read: there is a fault in its settings, or it holds itself and is no longer laid
out. -/
def EntryFault (v : Value) (f : Failure) : Prop :=
  SettingFault v f ∨ f = .endless ∧ v.isSpent = true

/-- The settings are not read: one of them is refused, or something hinders them. -/
def SettingsFault (es : Entries) (f : Failure) : Prop := f.IsConfigFault ∨ Hinders es f

variable {v w : Value} {f : Failure} {es : Entries}

theorem SettingFault.config (fault : ConfigFault) : SettingFault v (.config fault) :=
  .inl ⟨fault, rfl⟩

theorem SettingFault.of_isPart (h : SettingFault v f) (hv : IsPart v w) : SettingFault w f :=
  h.imp_right fun h => ⟨h.1, h.2.of_isPart hv⟩

theorem settingFault_refusal (v : Value) (fault : ConfigFault) :
    SettingFault v (v.refusal (.config fault)) := by
  obtain h | h := v.refusal_cases (.config fault)
  · rw [h]
    exact .config fault
  · exact .inr h

theorem meets_lineEndOfValue (v : Option Value) :
    Meets (SettingFault (v.getD .null)) (fun _ => True) (lineEndOfValue v) := by
  have hwrite : Meets (SettingFault (v.getD .null)) (fun _ => True)
      (v.getD (.text LineEnd.crlf.setting)).write := by
    cases v with
    | none => trivial
    | some v => exact v.writes.mono fun _ h => .inr h
  refine hwrite.bind fun s _ => ?_
  dsimp only
  split
  · trivial
  · exact .config _

theorem meets_stylesheetOfValue (v : Value) :
    Meets (SettingFault v) (fun _ => True) (stylesheetOfValue v) := by
  refine ((v.writesOr _).mono fun _ h => .inr h).bind fun s _ => ?_
  split
  · trivial
  · exact .config _

theorem meets_pluginOfValue (v : Value) :
    Meets (EntryFault v) (fun _ => True) (pluginOfValue v) := by
  have hentries : Meets (EntryFault v) (fun es => IsPart (.map es) v)
      (v.entriesOr (.config (.pluginWithoutModule v))) := by
    unfold entriesOr
    split
    · next h => exact .inr ⟨rfl, h⟩
    · split
      · next es hes =>
        have hpart : IsPart (.map es) v := by
          rw [← hes]
          exact isPart_body v
        exact hpart
      · exact .inl (settingFault_refusal v _)
  refine hentries.bind fun (es : Entries) hpart => ?_
  have ofField (key : String) (f : Failure) (h : SettingFault (es.field key) f) :
      SettingFault v f := by
    obtain hnull | hfield := field_cases es key
    · rw [hnull] at h
      exact .inl (h.resolve_right fun h => not_hasLongNumber_null h.2)
    · exact h.of_isPart (hfield.trans hpart)
  dsimp only
  split
  · refine ((writes _).mono fun f h => .inl (ofField "module" f (.inr h))).bind fun s _ => ?_
    exact ((writesOr _ _).mono fun f h => .inl (ofField "feature" f (.inr h))).bind fun t _ =>
      trivial
  · exact .inl (settingFault_refusal v _)

theorem fault_of_setting {key : String} (hkey : key ∈ settingKeys)
    (h : SettingFault (es.field key) f) : SettingsFault es f := by
  obtain h | ⟨rfl, h⟩ := h
  · exact .inl h
  · exact .inr (.longNumber hkey h)

/-- What keeps a plugin from being read is in the list of plugins. -/
theorem fault_of_plugin {xs : List Value} {x : Value}
    (hxs : (es.field "plugins").elements? = some xs) (hx : x ∈ xs)
    (h : EntryFault x f) : SettingsFault es f := by
  obtain h | ⟨rfl, h⟩ := h
  · have hkey : "plugins" ∈ settingKeys := by decide
    refine fault_of_setting hkey ?_
    obtain hpart | ⟨s, rfl⟩ := isPart_of_mem_elements hxs hx
    · exact h.of_isPart hpart
    · exact .inl (h.resolve_right fun h => not_hasLongNumber_text s h.2)
  · exact .inr (.spentPlugin hxs hx h)

theorem meets_plugins (es : Entries) :
    Meets (SettingsFault es) (fun xs => ∀ x ∈ xs, ∀ f, EntryFault x f → SettingsFault es f)
      (es.field "plugins").givenElements := by
  unfold givenElements
  split
  · next hgiven =>
    unfold elements
    split
    · next h => exact .inr (.spent h)
    · split
      · next xs hxs => exact fun x hx f h => fault_of_plugin hxs hx h
      · next hnone => exact .inr (.noElements hgiven hnone)
  · exact fun x hx => nomatch hx

theorem meets_ofEntries (es : Entries) :
    Meets (SettingsFault es) (fun _ => True) (ofEntries es) := by
  have here {key : String} (hkey : key ∈ settingKeys) (f : Failure) :
      SettingFault (es.field key) f → SettingsFault es f := fault_of_setting hkey
  refine ((meets_lineEndOfValue _).mono (here (by decide))).bind fun lineEnd _ => ?_
  refine ((meets_stylesheetOfValue _).mono (here (by decide))).bind fun stylesheet _ => ?_
  refine (meets_plugins es).bind fun xs hxs => ?_
  have hplugins : Meets (SettingsFault es) (fun ps => ∀ p ∈ ps, True)
      (xs.mapM pluginOfValue) :=
    Meets.mapM fun x hx => (meets_pluginOfValue x).mono (hxs x hx)
  refine hplugins.bind fun plugins _ => ?_
  have hlogo : Meets (SettingsFault es) (fun _ => True)
      ((es.field "header_logo_href").writeOr defaultLogoHref) :=
    (writesOr _ _).mono fun f h => here (by decide) f (.inr h)
  exact hlogo.bind fun logoHref _ => trivial

/-- Something keeps the settings in a file from being read, with a failure that is no fault of the
settings: the file cannot be found out about or is no text, its text has no value, or something in
the settings keeps them from being read. -/
inductive FileHinders (d : Disk) (p : Path) : Failure → Prop where
  | unfound {f : FileFault} (h : d.exists? p = .error f) : FileHinders d p (.file f)
  | unreadable {f : Failure} (h : d.readText p = .error f) : FileHinders d p f
  | text {s : String} {f : Failure} (hs : d.readText p = .ok s) (h : Yaml.load s = .error f) :
      FileHinders d p f
  | settings {es : Entries} {f : Failure} (hes : loadEntries d (some p) = .ok es)
      (h : Hinders es f) : FileHinders d p f

/-- The settings in a file are not read: there is a fault in them, or something hinders them. -/
def LoadingFault (d : Disk) (p : Path) (f : Failure) : Prop := f.IsConfigFault ∨ FileHinders d p f

theorem meets_readMapping (d : Disk) (p : Path) :
    Meets (LoadingFault d p) (fun _ => True) (readMapping d p) := by
  unfold readMapping
  split
  · next f h => exact .inr (.unfound h)
  · exact .inl ⟨_, rfl⟩
  · have hread : Meets (LoadingFault d p) (fun s => d.readText p = .ok s) (d.readText p) :=
      Meets.of_failures fun f h => .inr (.unreadable h)
    refine hread.bind fun s hs => ?_
    have hload : Meets (LoadingFault d p) (fun v => Yaml.load s = .ok v) (Yaml.load s) :=
      Meets.of_failures fun f h => .inr (.text hs h)
    refine hload.bind fun v _ => ?_
    split
    · trivial
    · split
      · trivial
      · exact .inl ⟨_, rfl⟩

theorem meets_load (d : Disk) (p : Path) :
    Meets (LoadingFault d p) (fun _ => True) (load d (some p)) := by
  have hes : Meets (LoadingFault d p)
      (fun es => loadEntries d (some p) = .ok es) (loadEntries d (some p)) := by
    have hread : Meets (LoadingFault d p) (fun _ => True)
        (loadEntries d (some p)) := (meets_readMapping d p).map fun _ _ => trivial
    exact Meets.of_failures fun f h => hread.of_error h
  refine hes.bind fun es hes => ?_
  exact (meets_ofEntries es).mono fun f h => h.imp_right (.settings hes)

/-- What is malformed is reported as a fault of the settings. Settings are read, or there is a fault
in them, unless a number in them is too long to be written or something else than a list stands for
the plugins. The same goes for the settings in a file, as long as it is text that has a value. -/
theorem malformed_settings_are_reported (es : Entries) (d : Disk) (p : Path) :
    (∀ f, ofEntries es = .error f → f.IsConfigFault ∨ Hinders es f) ∧
      ∀ f, load d (some p) = .error f → f.IsConfigFault ∨ FileHinders d p f :=
  ⟨fun _ h => (meets_ofEntries es).of_error h, fun _ h => (meets_load d p).of_error h⟩

/-- A disk with one settings file. -/
def diskWith (content : ByteArray) : Disk := ⟨.folder [("c.yml", .file content)], []⟩

/-- Malformed settings that are not reported as such: a number in the place of the plugins, a file
with a list that has no end, and a file with a byte that no text has. -/
theorem exceptions_to_config_faults :
    ofEntries [(.text "plugins", .int 5)] = .error .noElements ∧
      load (diskWith "[".toUTF8) (some ⟨.root, ["c.yml"]⟩) = .error .malformed ∧
      load (diskWith ⟨#[0xff]⟩) (some ⟨.root, ["c.yml"]⟩) = .error .undecodable :=
  ⟨rfl, by rfl, rfl⟩

end Config

end RefSite
