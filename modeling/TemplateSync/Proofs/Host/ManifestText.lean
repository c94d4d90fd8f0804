import Mathlib.Data.List.Nodup
import TemplateSync.Host.Manifest
import TemplateSync.Proofs.Message.Leaves
import TemplateSync.Proofs.Path.Text

set_option autoImplicit false

namespace TemplateSync

namespace Toml

def valuesOf (members : Members) (key : Key) : List Value :=
  (members.filter fun member => member.1 = key).map Prod.snd

theorem valuesOf_cons (key other : Key) (value : Value) (members : Members) :
    valuesOf ((other, value) :: members) key =
      if other = key then value :: valuesOf members key else valuesOf members key := by
  simp only [valuesOf, List.filter_cons, decide_eq_true_eq]
  split <;> rfl

theorem toList_injective {α : Type} : Function.Injective (Option.toList (α := α)) := by
  intro first second same
  cases first <;> cases second <;> simp_all

theorem fill?_iff {fields : List Key} (apart : fields.Nodup) {members : Members} {held : Key → Option Value}
    {slots : List (Option Value)} :
    fill? fields members (fields.map held) = some slots ↔
      slots.map Option.toList = fields.map fun key => (held key).toList ++ valuesOf members key := by
  -- The induction is on the members that are still to come; those before them have filled some of the fields.
  induction members generalizing held with
  | nil =>
    have lists : (fields.map fun key => (held key).toList ++ valuesOf [] key) =
        (fields.map held).map Option.toList := by
      simp [valuesOf]
    rw [fill?, lists, (List.map_injective_iff.mpr toList_injective).eq_iff, Option.some_inj, eq_comm]
  | cons member members ih =>
    obtain ⟨name, value⟩ := member
    rw [fill?]
    cases found : fields.findIdx? (· == name) with
    | none =>
      have outside : ∀ key ∈ fields, name ≠ key := by
        simpa [List.findIdx?_eq_none_iff, eq_comm (a := name)] using found
      have same : (fields.map fun key => (held key).toList ++ valuesOf ((name, value) :: members) key) =
          fields.map fun key => (held key).toList ++ valuesOf members key :=
        List.map_congr_left fun key inside => by rw [valuesOf_cons, if_neg (outside key inside)]
      rw [same]
      exact ih
    | some place =>
      obtain ⟨inside, own, -⟩ := List.findIdx?_eq_some_iff_getElem.mp found
      have own : fields[place] = name := by simpa using own
      have listed : name ∈ fields := own ▸ List.getElem_mem inside
      have slot : (fields.map held)[place]? = some (held name) := by simp [inside, own]
      simp only [slot]
      cases empty : held name with
      | some other =>
        simp only [reduceCtorEq, false_iff]
        intro same
        have at_place := congrArg (fun lists => lists[place]?) same
        simp only [List.getElem?_map, List.getElem?_eq_getElem inside, own, Option.map_some, empty, valuesOf_cons,
          if_true, Option.map_eq_some_iff] at at_place
        obtain ⟨filled, -, two⟩ := at_place
        cases filled <;> simp at two
      | none =>
        have later : (fields.map held).set place (some value) =
            fields.map (Function.update held name (some value)) := by
          apply List.ext_getElem
          next => simp
          next =>
            intro other first _
            simp only [List.length_set, List.length_map] at first
            simp only [List.getElem_set, List.getElem_map, Function.update_apply]
            have same : place = other ↔ fields[other] = name := by
              rw [← own, apart.getElem_inj_iff, eq_comm]
            simp [same]
        have lists : (fields.map fun key => (held key).toList ++ valuesOf ((name, value) :: members) key) =
            fields.map fun key =>
              (Function.update held name (some value) key).toList ++ valuesOf members key := by
          apply List.map_congr_left
          intro key _
          rw [valuesOf_cons]
          by_cases same : name = key
          next => simp [← same, empty]
          next => simp [same, Function.update_of_ne (Ne.symm same)]
        rw [later, lists]
        exact ih

theorem record?_iff {fields : List Key} (apart : fields.Nodup) {members : Members} {slots : List (Option Value)} :
    record? fields members = some slots ↔ slots.map Option.toList = fields.map (valuesOf members) := by
  simpa [record?] using @fill?_iff _ apart members (fun _ => none) slots

end Toml

namespace Manifest

def located (folder path : String) : String :=
  if path.toList.head? = some '/' then path
  else if folder = "" ∨ folder.toList.getLast? = some '/' then folder ++ path
  else folder ++ "/" ++ path

theorem join_located (folder path : String) :
    (Path.ofString folder).join (.ofString path) = .ofString (located folder path) := by
  have absolute : Path.isAbsolute ⟨Utf8.encode path⟩ = true ↔ path.toList.head? = some '/' := by
    rw [Path.isAbsolute, decide_eq_true_eq]
    exact Path.encode_head
  have empty : Utf8.encode folder = [] ↔ folder = "" := by
    rw [Utf8.encode_chars, List.flatMap_eq_nil_iff]
    constructor
    next =>
      intro none
      rw [← String.toList_eq_nil_iff, List.eq_nil_iff_forall_not_mem]
      exact fun c inside => String.utf8EncodeChar_ne_nil (none c inside)
    next =>
      rintro rfl
      simp
  simp only [Path.join, located, absolute, Path.ofString, Bool.or_eq_true, decide_eq_true_eq, empty, Path.encode_last]
  split
  next => rfl
  next =>
    split
    next => rw [Utf8.encode_append]
    next =>
      rw [Utf8.encode_append, Utf8.encode_append, List.append_assoc]
      rfl

/-- What the fields of a project say, in their order. The last two may be left out. -/
inductive Fields (folder : String) : List (Option Toml.Value) → ManifestEntry → Prop where
  | given {id name path : String} {uuid : Uuid} {references : Option Toml.Value} {listed : List String}
      {assemblyName : Option String} (identified : uuid.Spelled id.toList)
      (referred : references = none ∧ listed = [] ∨ references = some (.array (listed.map .text))) :
      Fields folder [some (.text id), some (.text name), some (.text path), references, assemblyName.map .text]
        ⟨⟨uuid, name, located folder path, listed⟩, assemblyName⟩

/-- A table that gives each field at most once, among others; or a row that begins with all of them. -/
inductive Describes (folder : String) : Toml.Value → ManifestEntry → Prop where
  | table (dotted : Bool) {members : Toml.Members} {slots : List (Option Toml.Value)} {entry : ManifestEntry}
      (given : slots.map Option.toList =
        ["id", "name", "path", "references", "assembly_name"].map (Toml.valuesOf members))
      (told : Fields folder slots entry) : Describes folder (.table dotted members) entry
  | row (items others : List Toml.Value) {entry : ManifestEntry} (told : Fields folder (items.map some) entry) :
      Describes folder (.array (items ++ others)) entry

inductive Lists (folder : String) (members : Toml.Members) : List ManifestEntry → Prop where
  | none (absent : Toml.valuesOf members "project" = []) : Lists folder members []
  | all {items : List Toml.Value} {entries : List ManifestEntry}
      (given : Toml.valuesOf members "project" = [.array items])
      (each : List.Forall₂ (Describes folder) items entries) : Lists folder members entries

def Tells (files : FileTree) (path : Path) (folder : String) (entries : List ManifestEntry) : Prop :=
  ∃ text members, files.read path = .ok (Utf8.encode text) ∧ Toml.parse? text = some members ∧
    Lists folder members entries

theorem text?_iff {value : Toml.Value} {text : String} : value.text? = some text ↔ value = .text text := by
  cases value <;> simp [Toml.Value.text?]

theorem texts?_iff {value : Toml.Value} {texts : List String} :
    value.texts? = some texts ↔ value = .array (texts.map .text) := by
  cases value with
  | array items =>
    have each : List.Forall₂ (fun (item : Toml.Value) text => item = .text text) items texts ↔
        items = texts.map .text := by
      have equal : List.Forall₂ Eq items (texts.map .text) ↔ items = texts.map .text := by
        rw [List.forall₂_eq_eq_eq]
      rwa [List.forall₂_map_right_iff] at equal
    rw [Toml.Value.texts?, Toml.Value.list?, mapM_iff fun _ _ _ => text?_iff, each, Toml.Value.array.injEq]
  | text | integer | boolean | float | date | table => simp [Toml.Value.texts?, Toml.Value.list?]

theorem uuid?_iff {value : Toml.Value} {uuid : Uuid} :
    uuid? value = some uuid ↔ ∃ text, value = .text text ∧ uuid.Spelled text.toList := by
  simp only [uuid?, Option.bind_eq_some_iff, text?_iff, Uuid.parse?_iff]

theorem references_iff {value : Option Toml.Value} {listed : List String} :
    Toml.optional? [] Toml.Value.texts? value = some listed ↔
      value = none ∧ listed = [] ∨ value = some (.array (listed.map .text)) := by
  cases value with
  | none => simp [Toml.optional?, eq_comm]
  | some value => simp [Toml.optional?, texts?_iff]

theorem assemblyName_iff {value : Option Toml.Value} {own : Option String} :
    Toml.optional? none (fun name => name.text?.map some) value = some own ↔ value = own.map .text := by
  cases value with
  | none => cases own <;> simp [Toml.optional?]
  | some value => cases own <;> simp [Toml.optional?, text?_iff]

theorem entry_located (folder : String) (listing : Listing) : entry (.ofString folder) listing =
    ⟨⟨listing.id, listing.name, located folder listing.path, listing.references⟩, listing.assemblyName⟩ := by
  rw [entry, join_located, Path.display, Path.ofString, Utf8.decode_encode]

theorem listing?_iff {folder : String} {slots : List (Option Toml.Value)} {found : ManifestEntry} :
    (∃ listing, listing? slots = some listing ∧ entry (.ofString folder) listing = found) ↔
      Fields folder slots found := by
  constructor
  next =>
    rintro ⟨listing, read, rfl⟩
    unfold listing? at read
    split at read
    next id name path references assemblyName =>
      simp only [Option.bind_eq_bind, Option.bind_eq_some_iff, Option.pure_def, Option.some.injEq, uuid?_iff,
        text?_iff, references_iff, assemblyName_iff] at read
      obtain ⟨uuid, ⟨text, rfl, identified⟩, name, rfl, path, rfl, listed, referred, own, rfl, rfl⟩ := read
      rw [entry_located]
      exact .given identified referred
    next => cases read
  next =>
    rintro ⟨identified, referred⟩
    refine ⟨⟨_, _, _, _, _⟩, ?_, entry_located ..⟩
    simp only [listing?, Option.bind_eq_bind, Option.bind_eq_some_iff, Option.pure_def, uuid?_iff, text?_iff,
      references_iff, assemblyName_iff]
    exact ⟨_, ⟨_, rfl, identified⟩, _, rfl, _, rfl, _, referred, _, rfl, rfl⟩

theorem Fields.length {folder : String} {slots : List (Option Toml.Value)} {found : ManifestEntry}
    (told : Fields folder slots found) : slots.length = fields.length := by
  cases told
  rfl

theorem fields_nodup : fields.Nodup := by decide

theorem project?_iff {folder : String} {value : Toml.Value} {found : ManifestEntry} :
    (∃ listing, project? value = some listing ∧ entry (.ofString folder) listing = found) ↔
      Describes folder value found := by
  cases value with
  | table dotted members =>
    simp only [project?, Option.bind_eq_some_iff, Toml.record?_iff fields_nodup]
    constructor
    next =>
      rintro ⟨listing, ⟨slots, given, read⟩, same⟩
      exact .table dotted given (listing?_iff.mp ⟨listing, read, same⟩)
    next =>
      rintro (⟨_, given, told⟩ | _)
      obtain ⟨listing, read, same⟩ := listing?_iff.mpr told
      exact ⟨listing, ⟨_, given, read⟩, same⟩
  | array items =>
    rw [project?]
    constructor
    next =>
      rintro ⟨listing, read, same⟩
      split at read
      next =>
        have described := Describes.row (items.take fields.length) (items.drop fields.length)
          (listing?_iff.mp ⟨listing, read, same⟩)
        rwa [List.take_append_drop] at described
      next => cases read
    next =>
      intro described
      generalize whole : Toml.Value.array items = value at described
      cases described with
      | table => cases whole
      | row items others told =>
        cases whole
        obtain ⟨listing, read, same⟩ := listing?_iff.mpr told
        have size : items.length = fields.length := by simpa using told.length
        refine ⟨listing, ?_, same⟩
        rw [if_pos (by simp [size]), ← size, List.take_left]
        exact read
  | text | integer | boolean | float | date =>
    simp only [project?, reduceCtorEq, false_and, exists_false, false_iff]
    rintro ⟨⟩

theorem forall₂_map {α β γ : Type} {Is : α → β → Prop} {make : β → γ} {items : List α} {made : List γ} :
    (∃ found, List.Forall₂ Is items found ∧ found.map make = made) ↔
      List.Forall₂ (fun item one => ∃ value, Is item value ∧ make value = one) items made := by
  induction items generalizing made with
  | nil => simp [eq_comm]
  | cons item items ih =>
    simp only [List.forall₂_cons_left_iff, ← ih]
    constructor
    next =>
      rintro ⟨_, ⟨value, found, own, others, rfl⟩, rfl⟩
      exact ⟨_, _, ⟨value, own, rfl⟩, ⟨found, others, rfl⟩, rfl⟩
    next =>
      rintro ⟨_, _, ⟨value, own, rfl⟩, ⟨found, others, rfl⟩, rfl⟩
      exact ⟨_, ⟨value, found, own, others, rfl⟩, rfl⟩

theorem forall₂_mem {α β : Type} {Is : α → β → Prop} {items : List α} {others : List β}
    (each : List.Forall₂ Is items others) {item : α} (inside : item ∈ items) : ∃ other, Is item other := by
  induction each with
  | nil => cases inside
  | cons own _ ih =>
    cases inside with
    | head => exact ⟨_, own⟩
    | tail _ later => exact ih later

theorem ofMembers?_eq {members : Toml.Members} {listings : List Listing} :
    ofMembers? members = some listings ↔ ∃ slot : Option Toml.Value,
      slot.toList = Toml.valuesOf members "project" ∧
        Toml.optional? [] (Toml.Value.list? project?) slot = some listings := by
  simp only [ofMembers?, Option.bind_eq_bind, Option.bind_eq_some_iff, Toml.record?_iff (List.nodup_singleton _)]
  constructor
  next =>
    rintro ⟨slots, given, read⟩
    split at read
    next slot => exact ⟨slot, by simpa using given, read⟩
    next => cases read
  next =>
    rintro ⟨slot, given, read⟩
    exact ⟨[slot], by simpa using given, read⟩

theorem ofMembers?_iff {folder : String} {members : Toml.Members} {entries : List ManifestEntry} :
    (∃ listings, ofMembers? members = some listings ∧ listings.map (entry (.ofString folder)) = entries) ↔
      Lists folder members entries := by
  have each {items : List Toml.Value} :
      (∃ listings, items.mapM project? = some listings ∧ listings.map (entry (.ofString folder)) = entries) ↔
        List.Forall₂ (Describes folder) items entries := by
    simp only [mapM_iff fun _ _ _ => Iff.rfl, forall₂_map, project?_iff]
  simp only [ofMembers?_eq]
  constructor
  next =>
    rintro ⟨listings, ⟨slot, given, read⟩, same⟩
    cases slot with
    | none =>
      cases read
      subst same
      exact .none given.symm
    | some value =>
      cases value with
      | array items => exact .all given.symm (each.mp ⟨listings, read, same⟩)
      | text | integer | boolean | float | date | table => cases read
  next =>
    rintro (absent | ⟨given, described⟩)
    next => exact ⟨[], ⟨none, absent.symm, rfl⟩, rfl⟩
    next =>
      obtain ⟨listings, read, same⟩ := each.mpr described
      exact ⟨listings, ⟨some _, given.symm, read⟩, same⟩

theorem readText_iff {files : FileTree} {path : Path} {text : String} :
    files.readText path = .ok text ↔ files.read path = .ok (Utf8.encode text) := by
  rw [FileTree.readText]
  cases content : files.read path with
  | error error => simp [Except.bind]
  | ok bytes =>
    have same : Utf8.decode? bytes = some text ↔ bytes = Utf8.encode text := by rw [Utf8.decode?_iff, eq_comm]
    rw [Except.ok.injEq, ← same]
    simp only [Except.bind, FileTree.textOf]
    cases Utf8.decode? bytes <;> simp

theorem readEntries_iff {files : FileTree} {path : Path} {folder : String} {entries : List ManifestEntry}
    (home : path.parent? = some (.ofString folder)) :
    readEntries files path = .ok entries ↔ Tells files path folder entries := by
  have parsed (text : String) : ofText path text = .ok entries ↔
      ∃ members, Toml.parse? text = some members ∧ Lists folder members entries := by
    rw [ofText, base, home, Option.getD_some]
    constructor
    next =>
      intro read
      split at read
      next listings found =>
        obtain ⟨members, parse, found⟩ := Option.bind_eq_some_iff.mp found
        exact ⟨members, parse, ofMembers?_iff.mp ⟨listings, found, Except.ok.inj read⟩⟩
      next => cases read
    next =>
      rintro ⟨members, parse, lists⟩
      obtain ⟨listings, found, same⟩ := ofMembers?_iff.mpr lists
      rw [parse, Option.bind_some, found]
      exact congrArg Except.ok same
  rw [readEntries, Tells]
  constructor
  next =>
    intro read
    split at read
    next => cases read
    next text found =>
      obtain ⟨members, parse, lists⟩ := (parsed text).mp read
      exact ⟨text, members, readText_iff.mp found, parse, lists⟩
  next =>
    rintro ⟨text, members, content, parse, lists⟩
    rw [readText_iff.mpr content]
    exact (parsed text).mpr ⟨members, parse, lists⟩

inductive Spoiled (files : FileTree) (path : Path) (folder : String) : Prop where
  | missing {error : IoError} (gone : files.read path = .error error)
  | garbled {bytes : Bytes} (content : files.read path = .ok bytes) (garbled : ¬ Utf8.IsText bytes)
  | malformed {text : String} (content : files.read path = .ok (Utf8.encode text))
      (malformed : Toml.parse? text = none)
  | unlisted {text : String} {members : Toml.Members} (content : files.read path = .ok (Utf8.encode text))
      (parsed : Toml.parse? text = some members) (some : Toml.valuesOf members "project" ≠ [])
      (other : ∀ items, Toml.valuesOf members "project" ≠ [.array items])
  | unfit {text : String} {members : Toml.Members} {items : List Toml.Value} {item : Toml.Value}
      (content : files.read path = .ok (Utf8.encode text)) (parsed : Toml.parse? text = some members)
      (given : Toml.valuesOf members "project" = [.array items]) (listed : item ∈ items)
      (unfit : ∀ entry, ¬ Describes folder item entry)

theorem described_or_unfit (folder : String) (items : List Toml.Value) :
    (∃ entries, List.Forall₂ (Describes folder) items entries) ∨
      ∃ item ∈ items, ∀ entry, ¬ Describes folder item entry := by
  induction items with
  | nil => exact .inl ⟨[], .nil⟩
  | cons item items ih =>
    by_cases own : ∃ entry, Describes folder item entry
    next =>
      obtain ⟨entry, own⟩ := own
      rcases ih with ⟨entries, others⟩ | ⟨other, inside, unfit⟩
      next => exact .inl ⟨entry :: entries, .cons own others⟩
      next => exact .inr ⟨other, List.mem_cons_of_mem _ inside, unfit⟩
    next => exact .inr ⟨item, List.mem_cons_self, not_exists.mp own⟩

theorem Lists.fit {folder : String} {members : Toml.Members} {items : List Toml.Value}
    {entries : List ManifestEntry} (lists : Lists folder members entries)
    (given : Toml.valuesOf members "project" = [.array items]) : List.Forall₂ (Describes folder) items entries := by
  cases lists with
  | none absent => cases absent.symm.trans given
  | all found each =>
    cases found.symm.trans given
    exact each

theorem told_or_spoiled (files : FileTree) (path : Path) (folder : String) :
    (∃ entries, Tells files path folder entries) ∨ Spoiled files path folder := by
  cases content : files.read path with
  | error error => exact .inr (.missing content)
  | ok bytes =>
    by_cases isText : Utf8.IsText bytes
    next =>
      obtain ⟨text, rfl⟩ := isText
      cases parsed : Toml.parse? text with
      | none => exact .inr (.malformed content parsed)
      | some members =>
        by_cases absent : Toml.valuesOf members "project" = []
        next => exact .inl ⟨[], text, members, content, parsed, .none absent⟩
        next =>
          by_cases given : ∃ items, Toml.valuesOf members "project" = [.array items]
          next =>
            obtain ⟨items, given⟩ := given
            rcases described_or_unfit folder items with ⟨entries, each⟩ | ⟨item, inside, unfit⟩
            next => exact .inl ⟨entries, text, members, content, parsed, .all given each⟩
            next => exact .inr (.unfit content parsed given inside unfit)
          next => exact .inr (.unlisted content parsed absent (not_exists.mp given))
    next => exact .inr (.garbled content isText)

theorem Spoiled.untold {files : FileTree} {path : Path} {folder : String} {entries : List ManifestEntry}
    (spoiled : Spoiled files path folder) : ¬ Tells files path folder entries := by
  rintro ⟨text, members, content, parsed, lists⟩
  have same {bytes : Bytes} (other : files.read path = .ok bytes) : bytes = Utf8.encode text :=
    Except.ok.inj (other.symm.trans content)
  have equal {other : String} (found : files.read path = .ok (Utf8.encode other)) : other = text := by
    have texts := congrArg Utf8.decode (same found)
    rwa [Utf8.decode_encode, Utf8.decode_encode] at texts
  cases spoiled with
  | missing gone => cases gone.symm.trans content
  | garbled found garbled => exact garbled ⟨text, (same found).symm⟩
  | malformed found malformed =>
    obtain rfl := equal found
    cases malformed.symm.trans parsed
  | unlisted found other some wrong =>
    obtain rfl := equal found
    cases other.symm.trans parsed
    cases lists with
    | none absent => exact some absent
    | all given each => exact wrong _ given
  | unfit found other given listed unfit =>
    obtain rfl := equal found
    cases other.symm.trans parsed
    obtain ⟨entry, described⟩ := forall₂_mem (lists.fit given) listed
    exact unfit entry described

end Manifest

end TemplateSync
