/-
This file is the typed manifest of the service.

The submission ships a JSON document; the typed manifest is meant as its lossless mirror. A
derived reader ignores the members it does not know, reads null as absent, and takes a record
also as an array; and what is empty or absent is left out when the manifest is written. So the
mirror is lossless exactly on the documents that have nothing of the kind. Manifests and
documents are read from texts and written as pretty texts, so all of this is for what a text
carries unchanged. One capability is looser: what it does not know it keeps, as long as that
does not go by the names it knows.
-/

import Mathlib.Data.List.TakeWhile
import Hammurabi.Library.Cells
import Hammurabi.Library.JsonPretty
import Hammurabi.Library.Outcome

namespace Hammurabi

open Json Outcome Value

/-! ### The parts of a manifest -/

/-- Manifest author block. -/
structure Author where
  name : String
  url : String

/-- Sovereignty posture. -/
structure Sovereignty where
  binding : String
  telemetry : String
  keyPersistence : String
  clockDiscipline : String

/-- Marketplace display block. -/
structure Display where
  logo : String
  primaryColor : String
  accentColor : String

/-- The pricing block. -/
structure Pricing where
  model : String
  scheme : Option String
  asset : Option String
  credentialMintFeeMicro : Option UInt64
  credentialMintFeeDisplay : Option String
  credentialVerifyFee : Option String

namespace Author

def names : List String := ["name", "url"]

def toJson (author : Author) : Value := writeTexts names [author.name, author.url]

def fromJson (value : Value) : Option Author := do
  let [name, url] ← readTexts names value | none
  return ⟨name, url⟩

theorem fromJson_eq_some (value : Value) (author : Author)
    (read : fromJson value = some author) :
    readTexts names value = some [author.name, author.url] := by
  rw [fromJson] at read
  obtain ⟨texts, held, read⟩ := Option.bind_eq_some_iff.mp read
  split at read
  · cases read
    exact held
  · cases read

theorem fromJson_toJson (author : Author) : fromJson author.toJson = some author := by
  rw [fromJson, toJson, readTexts_writeTexts names [author.name, author.url] (by decide) rfl]
  rfl

theorem toJson_sameUpToOrder_iff (value : Value) (author : Author)
    (read : fromJson value = some author) :
    author.toJson.SameUpToOrder value ↔ OnlyMembers names value :=
  writeTexts_sameUpToOrder_iff names _ (by decide) value (fromJson_eq_some value author read)

end Author

namespace Sovereignty

def names : List String := ["binding", "telemetry", "key_persistence", "clock_discipline"]

def toJson (sovereignty : Sovereignty) : Value :=
  writeTexts names [sovereignty.binding, sovereignty.telemetry, sovereignty.keyPersistence,
    sovereignty.clockDiscipline]

def fromJson (value : Value) : Option Sovereignty := do
  let [binding, telemetry, keyPersistence, clockDiscipline] ← readTexts names value | none
  return ⟨binding, telemetry, keyPersistence, clockDiscipline⟩

theorem fromJson_eq_some (value : Value) (sovereignty : Sovereignty)
    (read : fromJson value = some sovereignty) :
    readTexts names value = some [sovereignty.binding, sovereignty.telemetry,
      sovereignty.keyPersistence, sovereignty.clockDiscipline] := by
  rw [fromJson] at read
  obtain ⟨texts, held, read⟩ := Option.bind_eq_some_iff.mp read
  split at read
  · cases read
    exact held
  · cases read

theorem fromJson_toJson (sovereignty : Sovereignty) :
    fromJson sovereignty.toJson = some sovereignty := by
  rw [fromJson, toJson, readTexts_writeTexts names [sovereignty.binding, sovereignty.telemetry,
    sovereignty.keyPersistence, sovereignty.clockDiscipline] (by decide) rfl]
  rfl

theorem toJson_sameUpToOrder_iff (value : Value) (sovereignty : Sovereignty)
    (read : fromJson value = some sovereignty) :
    sovereignty.toJson.SameUpToOrder value ↔ OnlyMembers names value :=
  writeTexts_sameUpToOrder_iff names _ (by decide) value (fromJson_eq_some value sovereignty read)

end Sovereignty

namespace Display

def names : List String := ["logo", "primary_color", "accent_color"]

def toJson (display : Display) : Value :=
  writeTexts names [display.logo, display.primaryColor, display.accentColor]

def fromJson (value : Value) : Option Display := do
  let [logo, primaryColor, accentColor] ← readTexts names value | none
  return ⟨logo, primaryColor, accentColor⟩

theorem fromJson_eq_some (value : Value) (display : Display)
    (read : fromJson value = some display) :
    readTexts names value = some [display.logo, display.primaryColor, display.accentColor] := by
  rw [fromJson] at read
  obtain ⟨texts, held, read⟩ := Option.bind_eq_some_iff.mp read
  split at read
  · cases read
    exact held
  · cases read

theorem fromJson_toJson (display : Display) : fromJson display.toJson = some display := by
  rw [fromJson, toJson, readTexts_writeTexts names
    [display.logo, display.primaryColor, display.accentColor] (by decide) rfl]
  rfl

theorem toJson_sameUpToOrder_iff (value : Value) (display : Display)
    (read : fromJson value = some display) :
    display.toJson.SameUpToOrder value ↔ OnlyMembers names value :=
  writeTexts_sameUpToOrder_iff names _ (by decide) value (fromJson_eq_some value display read)

end Display

/-- A text is written back as it was. -/
theorem text_written (value : Value) (text : String) (_ : value.UniqueKeys)
    (read : value.asStr = some text) : (Value.string text).SameUpToOrder value ↔ True :=
  iff_true_intro (sameUpToOrder_of_asStr value text read)

/-- None of the optional fields is there as null. -/
def NoNulls (fields : List Field) (value : Value) : Prop :=
  ∀ field ∈ fields, field.absent = some .null → value.get field.name ≠ some .null

namespace Pricing

def fields : List Field := [.required "model", .optional "scheme", .optional "asset",
  .optional "credential_mint_fee_micro", .optional "credential_mint_fee_display",
  .optional "credential_verify_fee"]

theorem fields_unique : (fields.map Field.name).Nodup := by decide

def cells (pricing : Pricing) : List (String × Option Value) := [
  ("model", some (.string pricing.model)),
  ("scheme", pricing.scheme.map .string),
  ("asset", pricing.asset.map .string),
  ("credential_mint_fee_micro", pricing.credentialMintFeeMicro.map .ofUInt64),
  ("credential_mint_fee_display", pricing.credentialMintFeeDisplay.map .string),
  ("credential_verify_fee", pricing.credentialVerifyFee.map .string)]

def toJson (pricing : Pricing) : Value := .object (listCells pricing.cells)

def fromJson (value : Value) : Option Pricing := do
  let [model, scheme, asset, fee, display, verify] ← readRecord fields value | none
  return {
    model := ← model.asStr
    scheme := ← readOptional Value.asStr scheme
    asset := ← readOptional Value.asStr asset
    credentialMintFeeMicro := ← readOptional readUInt64 fee
    credentialMintFeeDisplay := ← readOptional Value.asStr display
    credentialVerifyFee := ← readOptional Value.asStr verify }

/-- An object with the fields of a pricing alone, none of them null. -/
def Mirrored (value : Value) : Prop := OnlyMembers (fields.map Field.name) value ∧
  NoNulls fields value

/-- What is read of the fields of a pricing, one by one. -/
theorem fromJson_eq_some (value : Value) (pricing : Pricing)
    (read : fromJson value = some pricing) :
    ∃ model scheme asset fee display verify,
      readRecord fields value = some [model, scheme, asset, fee, display, verify] ∧
      model.asStr = some pricing.model ∧
      readOptional Value.asStr scheme = some pricing.scheme ∧
      readOptional Value.asStr asset = some pricing.asset ∧
      readOptional readUInt64 fee = some pricing.credentialMintFeeMicro ∧
      readOptional Value.asStr display = some pricing.credentialMintFeeDisplay ∧
      readOptional Value.asStr verify = some pricing.credentialVerifyFee := by
  rw [fromJson] at read
  obtain ⟨values, held, read⟩ := Option.bind_eq_some_iff.mp read
  split at read
  · simp only [Option.bind_eq_bind, Option.bind_eq_some_iff, Option.pure_def,
      Option.some.injEq] at read
    obtain ⟨model, modelRead, scheme, schemeRead, asset, assetRead, fee, feeRead, display,
      displayRead, verify, verifyRead, rfl⟩ := read
    exact ⟨_, _, _, _, _, _, held, modelRead, schemeRead, assetRead, feeRead, displayRead,
      verifyRead⟩
  · cases read

/-- A pricing reads back. -/
theorem fromJson_toJson (pricing : Pricing) : fromJson pricing.toJson = some pricing := by
  have text := fun content => readOptional_write Value.asStr Value.string Value.asStr_string
    (by simp) content
  have fee := readOptional_write readUInt64 Value.ofUInt64 readUInt64_ofUInt64
    (by simp [Value.ofUInt64]) pricing.credentialMintFeeMicro
  rw [fromJson, toJson, readRecord_listCells fields pricing.cells rfl fields_unique]
  simp only [fields, cells, Field.required, Field.optional, List.zip_cons_cons,
    List.zip_nil_right, List.mapM_cons, List.mapM_nil, Option.or_some, Option.some_or,
    Option.pure_def, Option.bind_eq_bind, Option.bind_some, asStr_string, text, fee]

/-- A pricing is written back as it was when its document is mirrored. -/
theorem toJson_sameUpToOrder_iff (value : Value) (unique : value.UniqueKeys) (pricing : Pricing)
    (read : fromJson value = some pricing) :
    pricing.toJson.SameUpToOrder value ↔ Mirrored value := by
  obtain ⟨model, scheme, asset, fee, display, verify, held, modelRead, schemeRead, assetRead,
    feeRead, displayRead, verifyRead⟩ := fromJson_eq_some value pricing read
  cases value with
  | object members =>
    have each := (readRecord_object_eq_some_iff _ members _).mp held
    simp only [fields, List.forall₂_cons, List.Forall₂.nil, and_true] at each
    obtain ⟨modelHeld, schemeHeld, assetHeld, feeHeld, displayHeld, verifyHeld⟩ := each
    have number : ∀ value content, value.UniqueKeys → readUInt64 value = some content →
        ((Value.ofUInt64 content).SameUpToOrder value ↔ True) :=
      fun value content _ read => iff_true_intro (sameUpToOrder_of_readUInt64 value content read)
    rw [toJson, sameUpToOrder_listCells_iff pricing.cells members fields_unique
      ((uniqueKeys_object members).mp unique).1, Mirrored, onlyMembers_object]
    refine and_congr_right fun _ => ?_
    simp only [cells, NoNulls, fields, List.forall_mem_cons, List.not_mem_nil, false_imp_iff,
      implies_true, and_true]
    rw [sameCell_required members unique _ model asStr string _ text_written _ modelHeld modelRead,
      sameCell_optional members unique _ scheme asStr string _ text_written _ schemeHeld schemeRead,
      sameCell_optional members unique _ asset asStr string _ text_written _ assetHeld assetRead,
      sameCell_optional members unique _ fee readUInt64 ofUInt64 _ number _ feeHeld feeRead,
      sameCell_optional members unique _ display asStr string _ text_written _ displayHeld
        displayRead,
      sameCell_optional members unique _ verify asStr string _ text_written _ verifyHeld verifyRead]
    simp [Field.required, Field.optional, Value.get]
  | _ =>
    refine iff_of_false (not_sameUpToOrder_object _ _ (by simp)) ?_
    rintro ⟨⟨members, ⟨⟩, -⟩, -⟩

end Pricing

/-! ### The manifest -/

/-- The manifest of the service; maps are listed by key. -/
structure AspManifest where
  manifestVersion : String
  name : String
  description : String
  version : String
  author : Author
  capabilities : OrderedMap String Value
  pricing : Pricing
  integrations : OrderedMap String Value
  sovereignty : Option Sovereignty
  display : Option Display

namespace AspManifest

def fields : List Field := [.required "manifest_version", .required "name",
  .required "description", .required "version", .required "author", .required "capabilities",
  .required "pricing", ⟨"integrations", some (.object [])⟩, .optional "sovereignty",
  .optional "display"]

theorem fields_unique : (fields.map Field.name).Nodup := by decide

/-- An empty map is left out. -/
def mapCell (map : OrderedMap String Value) : Option Value :=
  if map.entries = [] then none else some (writeMap map)

def cells (manifest : AspManifest) : List (String × Option Value) := [
  ("manifest_version", some (.string manifest.manifestVersion)),
  ("name", some (.string manifest.name)),
  ("description", some (.string manifest.description)),
  ("version", some (.string manifest.version)),
  ("author", some manifest.author.toJson),
  ("capabilities", some (writeMap manifest.capabilities)),
  ("pricing", some manifest.pricing.toJson),
  ("integrations", mapCell manifest.integrations),
  ("sovereignty", manifest.sovereignty.map Sovereignty.toJson),
  ("display", manifest.display.map Display.toJson)]

/-- The document that the derived writer makes of a manifest. -/
def toJson (manifest : AspManifest) : Value := .object (listCells manifest.cells)

/-- What the derived reader takes a document for. -/
def fromJson (value : Value) : Option AspManifest := do
  let [manifestVersion, name, description, version, author, capabilities, pricing, integrations,
    sovereignty, display] ← readRecord fields value | none
  return {
    manifestVersion := ← manifestVersion.asStr
    name := ← name.asStr
    description := ← description.asStr
    version := ← version.asStr
    author := ← Author.fromJson author
    capabilities := ← readMap capabilities
    pricing := ← Pricing.fromJson pricing
    integrations := ← readMap integrations
    sovereignty := ← readOptional Sovereignty.fromJson sovereignty
    display := ← readOptional Display.fromJson display }

/-- What is read of the fields of a manifest, one by one. -/
theorem fromJson_eq_some (value : Value) (manifest : AspManifest)
    (read : fromJson value = some manifest) :
    ∃ manifestVersion name description version author capabilities pricing integrations sovereignty
      display, readRecord fields value = some [manifestVersion, name, description, version, author,
        capabilities, pricing, integrations, sovereignty, display] ∧
      manifestVersion.asStr = some manifest.manifestVersion ∧ name.asStr = some manifest.name ∧
      description.asStr = some manifest.description ∧ version.asStr = some manifest.version ∧
      Author.fromJson author = some manifest.author ∧
      readMap capabilities = some manifest.capabilities ∧
      Pricing.fromJson pricing = some manifest.pricing ∧
      readMap integrations = some manifest.integrations ∧
      readOptional Sovereignty.fromJson sovereignty = some manifest.sovereignty ∧
      readOptional Display.fromJson display = some manifest.display := by
  rw [fromJson] at read
  obtain ⟨values, held, read⟩ := Option.bind_eq_some_iff.mp read
  split at read
  · simp only [Option.bind_eq_bind, Option.bind_eq_some_iff, Option.pure_def,
      Option.some.injEq] at read
    obtain ⟨_, versionRead, _, nameRead, _, descriptionRead, _, releaseRead, _, authorRead, _,
      capabilitiesRead, _, pricingRead, _, integrationsRead, _, sovereigntyRead, _, displayRead,
      rfl⟩ := read
    exact ⟨_, _, _, _, _, _, _, _, _, _, held, versionRead, nameRead, descriptionRead, releaseRead,
      authorRead, capabilitiesRead, pricingRead, integrationsRead, sovereigntyRead, displayRead⟩
  · cases read

/-- What is read of the cell of a map is the map. -/
theorem readMap_mapCell (map : OrderedMap String Value) :
    readMap ((mapCell map).getD (.object [])) = some map := by
  rw [mapCell]
  split_ifs with empty
  · obtain ⟨entries, ordered⟩ := map
    cases empty
    rfl
  · exact readMap_writeMap map

/-- Every manifest reads back. -/
theorem fromJson_toJson (manifest : AspManifest) : fromJson manifest.toJson = some manifest := by
  have sovereignty := readOptional_write Sovereignty.fromJson Sovereignty.toJson
    Sovereignty.fromJson_toJson (by simp [Sovereignty.toJson, writeTexts]) manifest.sovereignty
  have display := readOptional_write Display.fromJson Display.toJson Display.fromJson_toJson
    (by simp [Display.toJson, writeTexts]) manifest.display
  have integrations := readMap_mapCell manifest.integrations
  rw [fromJson, toJson, readRecord_listCells fields manifest.cells rfl fields_unique]
  simp only [fields, cells, Field.required, Field.optional, List.zip_cons_cons,
    List.zip_nil_right, List.mapM_cons, List.mapM_nil, Option.or_some, Option.some_or,
    Option.pure_def, Option.bind_eq_bind, Option.bind_some, asStr_string, Author.fromJson_toJson,
    Pricing.fromJson_toJson, readMap_writeMap, integrations, sovereignty, display]

/-- A document the manifest mirrors: an object with its fields alone, none of them null, the
integrations not empty, and its parts in turn. -/
structure Mirrored (document : Value) : Prop where
  only : OnlyMembers (fields.map Field.name) document
  present : NoNulls fields document
  integrations : document.get "integrations" ≠ some (.object [])
  author : ∀ value, document.get "author" = some value → OnlyMembers Author.names value
  pricing : ∀ value, document.get "pricing" = some value → Pricing.Mirrored value
  sovereignty : ∀ value, document.get "sovereignty" = some value →
    OnlyMembers Sovereignty.names value
  display : ∀ value, document.get "display" = some value → OnlyMembers Display.names value

/-- The cell of a map is what the document has, unless that is an empty object. -/
theorem sameCell_mapCell (members : List (String × Value))
    (unique : (Value.object members).UniqueKeys) (name : String) (value : Value)
    (map : OrderedMap String Value)
    (held : readField members ⟨name, some (.object [])⟩ = some value)
    (typed : readMap value = some map) :
    SameCell (mapCell map) (members.lookup name) ↔
      members.lookup name ≠ some (.object []) := by
  rw [readField_eq_lookup members ((uniqueKeys_object members).mp unique).1] at held
  change (members.lookup name).or (some (.object [])) = some value at held
  cases there : members.lookup name with
  | none =>
    rw [there] at held
    cases held
    cases typed
    exact iff_of_true (.inl ⟨rfl, rfl⟩) (by simp)
  | some other =>
    rw [there] at held
    cases held
    have own := uniqueKeys_of_lookup members unique name value there
    have same := writeMap_sameUpToOrder value map own typed
    have empty : map.entries = [] ↔ value = .object [] := by
      cases value with
      | object inside =>
        cases typed
        have perm := collect_perm inside ((uniqueKeys_object inside).mp own).1
        rw [Value.object.injEq]
        exact ⟨fun none => (none ▸ perm).nil_eq.symm, fun none => by rw [none] at perm ⊢; rfl⟩
      | _ => cases typed
    rw [mapCell]
    split_ifs with none
    · rw [sameCell_none, empty.mp none]
      simp
    · rw [sameCell_some]
      refine iff_of_true ⟨value, rfl, same⟩ ?_
      simpa using fun isEmpty => none (empty.mpr isEmpty)

/-- A manifest is written back as the document it was read from exactly when it mirrors that. -/
theorem toJson_sameUpToOrder_iff (document : Value) (unique : document.UniqueKeys)
    (manifest : AspManifest) (read : fromJson document = some manifest) :
    manifest.toJson.SameUpToOrder document ↔ Mirrored document := by
  obtain ⟨manifestVersion, name, description, version, author, capabilities, pricing, integrations,
    sovereignty, display, held, versionRead, nameRead, descriptionRead, releaseRead, authorRead,
    capabilitiesRead, pricingRead, integrationsRead, sovereigntyRead, displayRead⟩ :=
    fromJson_eq_some document manifest read
  cases document with
  | object members =>
    have each := (readRecord_object_eq_some_iff _ members _).mp held
    simp only [fields, List.forall₂_cons, List.Forall₂.nil, and_true] at each
    obtain ⟨versionHeld, nameHeld, descriptionHeld, releaseHeld, authorHeld, capabilitiesHeld,
      pricingHeld, integrationsHeld, sovereigntyHeld, displayHeld⟩ := each
    have map : ∀ value map, value.UniqueKeys → readMap value = some map →
        ((writeMap map).SameUpToOrder value ↔ True) :=
      fun value map own read => iff_true_intro (writeMap_sameUpToOrder value map own read)
    rw [toJson, sameUpToOrder_listCells_iff manifest.cells members fields_unique
      ((uniqueKeys_object members).mp unique).1]
    simp only [cells, List.forall_mem_cons, List.not_mem_nil, false_imp_iff, implies_true, and_true]
    rw [sameCell_required members unique _ manifestVersion asStr string _ text_written _
        versionHeld versionRead,
      sameCell_required members unique _ name asStr string _ text_written _ nameHeld nameRead,
      sameCell_required members unique _ description asStr string _ text_written _
        descriptionHeld descriptionRead,
      sameCell_required members unique _ version asStr string _ text_written _
        releaseHeld releaseRead,
      sameCell_required members unique _ author Author.fromJson Author.toJson _
        (fun value content _ => Author.toJson_sameUpToOrder_iff value content) _ authorHeld
        authorRead,
      sameCell_required members unique _ capabilities readMap writeMap _ map _ capabilitiesHeld
        capabilitiesRead,
      sameCell_required members unique _ pricing Pricing.fromJson Pricing.toJson _
        (fun value content own => Pricing.toJson_sameUpToOrder_iff value own content) _
        pricingHeld pricingRead,
      sameCell_mapCell members unique _ integrations _ integrationsHeld integrationsRead,
      sameCell_optional members unique _ sovereignty Sovereignty.fromJson Sovereignty.toJson _
        (fun value content _ => Sovereignty.toJson_sameUpToOrder_iff value content) _
        sovereigntyHeld sovereigntyRead,
      sameCell_optional members unique _ display Display.fromJson Display.toJson _
        (fun value content _ => Display.toJson_sameUpToOrder_iff value content) _
        displayHeld displayRead]
    constructor
    · rintro ⟨listed, -, -, -, -, author, -, pricing, integrations, ⟨sovereigntyThere, sovereignty⟩,
        displayThere, display⟩
      refine ⟨(onlyMembers_object _ members).mpr listed, ?_, integrations, author, pricing,
        sovereignty, display⟩
      simpa [NoNulls, fields, Field.required, Field.optional, Value.get] using
        ⟨sovereigntyThere, displayThere⟩
    · intro mirrored
      have present := mirrored.present
      simp [NoNulls, fields, Field.required, Field.optional, Value.get] at present
      exact ⟨(onlyMembers_object _ members).mp mirrored.only, fun _ _ => trivial,
        fun _ _ => trivial, fun _ _ => trivial, fun _ _ => trivial, mirrored.author,
        fun _ _ => trivial, mirrored.pricing, mirrored.integrations,
        ⟨present.1, mirrored.sovereignty⟩, present.2, mirrored.display⟩
  | _ =>
    refine iff_of_false (not_sameUpToOrder_object _ _ (by simp)) ?_
    rintro ⟨⟨members, ⟨⟩, -⟩, -⟩

/-! ### Texts -/

/-- Adapter-boundary error. -/
inductive OkaError where
  | schema (detail : String)
  | boundary (detail : String)
  deriving DecidableEq, Repr

def OkaError.toString : OkaError → String
  | .schema detail => s!"schema error: {detail}"
  | .boundary detail => s!"okx boundary error: {detail}"

end AspManifest

/-- The reader of texts: the document a text stands for, or why it stands for none, and why a
document is not what was asked for. -/
structure TextReader where
  fromStr : String → Except String Value
  typeError : Value → String

/-- Pretty text is read back, for every document that a text carries unchanged. -/
def TextReader.ReadsBack (reader : TextReader) : Prop :=
  ∀ document, Portable 128 document → reader.fromStr (.ofList document.pretty) = .ok document

namespace AspManifest

/-- Parse a manifest from JSON text, mapping failures to a schema error. -/
def fromText (reader : TextReader) (text : String) : Except OkaError AspManifest :=
  match reader.fromStr text with
  | .error why => .error (.schema why)
  | .ok document =>
    match fromJson document with
    | none => .error (.schema (reader.typeError document))
    | some manifest => .ok manifest

/-- Serialize back to pretty JSON, which no manifest fails to. -/
def toText (manifest : AspManifest) : Except OkaError String :=
  .ok (.ofList manifest.toJson.pretty)

/-- What its maps hold, a text carries two levels below the manifest. -/
structure Carried (manifest : AspManifest) : Prop where
  capabilities : ∀ entry ∈ manifest.capabilities.entries, Portable 126 entry.2
  integrations : ∀ entry ∈ manifest.integrations.entries, Portable 126 entry.2

/-- An optional cell is portable when whatever may stand in it is. -/
theorem portable_optional {Content : Type} (bound : Nat) (write : Content → Value)
    (content : Option Content) (each : ∀ content, Portable bound (write content)) :
    ∀ value, content.map write = some value → Portable bound value := by
  intro value same
  obtain ⟨content, -, rfl⟩ := Option.map_eq_some_iff.mp same
  exact each content

theorem portable_pricing (pricing : Pricing) : Portable 127 pricing.toJson := by
  have inner : 0 < 126 := by decide
  have text := portable_string 126 inner
  refine portable_listCells 126 inner pricing.cells Pricing.fields_unique ?_
  simp only [Pricing.cells, List.forall_mem_cons, List.not_mem_nil, false_imp_iff, implies_true,
    and_true]
  exact ⟨fun _ same => Option.some.inj same ▸ text _, portable_optional 126 _ _ text,
    portable_optional 126 _ _ text, portable_optional 126 _ _ (portable_ofUInt64 126 inner),
    portable_optional 126 _ _ text, portable_optional 126 _ _ text⟩

/-- A text carries the document of such a manifest. -/
theorem portable_toJson (manifest : AspManifest) (carried : manifest.Carried) :
    Portable 128 manifest.toJson := by
  have outer : 0 < 127 := by decide
  have inner : 0 < 126 := by decide
  have text := portable_string 127 outer
  have record := fun names texts => portable_writeTexts 126 inner names texts
  have integrations : ∀ value, mapCell manifest.integrations = some value → Portable 127 value := by
    intro value filled
    rw [mapCell] at filled
    split_ifs at filled
    exact Option.some.inj filled ▸ portable_writeMap 126 inner _ carried.integrations
  refine portable_listCells 127 outer manifest.cells fields_unique ?_
  simp only [cells, List.forall_mem_cons, List.not_mem_nil, false_imp_iff, implies_true, and_true]
  exact ⟨fun _ same => Option.some.inj same ▸ text _, fun _ same => Option.some.inj same ▸ text _,
    fun _ same => Option.some.inj same ▸ text _, fun _ same => Option.some.inj same ▸ text _,
    fun _ same => Option.some.inj same ▸ record Author.names _ (by decide) rfl,
    fun _ same => Option.some.inj same ▸ portable_writeMap 126 inner _ carried.capabilities,
    fun _ same => Option.some.inj same ▸ portable_pricing manifest.pricing, integrations,
    portable_optional 127 _ _ fun _ => record Sovereignty.names _ (by decide) rfl,
    portable_optional 127 _ _ fun _ => record Display.names _ (by decide) rfl⟩

/-- What is read of a document that a text carries, a text carries. -/
theorem carried_of_read (document : Value) (portable : Portable 128 document)
    (manifest : AspManifest) (read : fromJson document = some manifest) : manifest.Carried := by
  obtain ⟨_, _, _, _, _, capabilities, _, integrations, _, _, held, -, -, -, -, -, capabilitiesRead,
    -, integrationsRead, -, -⟩ := fromJson_eq_some document manifest read
  have none : Portable 127 .null := portable_null 127 (by decide)
  have empty : Portable 127 (.object []) := ⟨by simp, by simp, by decide⟩
  have each := portable_of_readRecord 127 (by decide) fields document _ held portable (by
    simp only [fields, Field.required, Field.optional, List.forall_mem_cons, List.not_mem_nil,
      false_imp_iff, implies_true, and_true, true_and, reduceCtorEq, Option.some.injEq,
      forall_eq']
    exact ⟨empty, none, none⟩)
  exact ⟨portable_of_readMap 126 (by decide) capabilities _ capabilitiesRead (each _ (by simp)),
    portable_of_readMap 126 (by decide) integrations _ integrationsRead (each _ (by simp))⟩

/-- A manifest that a text carries is written as a text from which its document is read. -/
theorem fromStr_toText (reader : TextReader) (readsBack : reader.ReadsBack)
    (manifest : AspManifest) (carried : manifest.Carried) :
    ∃ text, manifest.toText = .ok text ∧ reader.fromStr text = .ok manifest.toJson ∧
      fromText reader text = .ok manifest := by
  have read := readsBack manifest.toJson (portable_toJson manifest carried)
  refine ⟨_, rfl, read, ?_⟩
  rw [fromText, read]
  dsimp only
  rw [fromJson_toJson]

/-- A text is read as what its document is read as. -/
theorem fromText_eq_ok (reader : TextReader) (text : String) (document : Value)
    (manifest : AspManifest) (carries : reader.fromStr text = .ok document)
    (read : fromText reader text = .ok manifest) : fromJson document = some manifest := by
  rw [fromText, carries] at read
  dsimp only at read
  cases typed : fromJson document with
  | none =>
    rw [typed] at read
    cases read
  | some other =>
    rw [typed] at read
    rw [Except.ok.inj read]

/-! ### Validity -/

/-- The white space of Unicode. -/
def isWhiteSpace (c : Char) : Bool :=
  let code := c.toNat
  (9 ≤ code && code ≤ 13) || code == 32 || code == 0x85 || code == 0xA0 || code == 0x1680 ||
    (0x2000 ≤ code && code ≤ 0x200A) || code == 0x2028 || code == 0x2029 || code == 0x202F ||
    code == 0x205F || code == 0x3000

/-- A text without white space at its ends. -/
def trim (text : List Char) : List Char :=
  ((text.dropWhile isWhiteSpace).reverse.dropWhile isWhiteSpace).reverse

/-- Minimal validity: non-empty identity, the pricing model, at least one capability. The quoted
form of a text is a parameter. -/
def validate (quoted : String → String) (manifest : AspManifest) : Except OkaError Unit := do
  if (trim manifest.name.toList).isEmpty then
    throw (.schema "manifest name is empty")
  if manifest.pricing.model ≠ "x402" then
    throw (.schema s!"expected x402 pricing model, got {quoted manifest.pricing.model}")
  if manifest.capabilities.entries.isEmpty then
    throw (.schema "manifest advertises no capabilities")

theorem trim_eq_nil_iff (text : List Char) :
    trim text = [] ↔ ∀ c ∈ text, isWhiteSpace c = true := by
  rw [trim, List.reverse_eq_nil_iff, List.dropWhile_eq_nil_iff]
  simp only [List.mem_reverse]
  constructor
  · intro rest c inside
    rw [← List.takeWhile_append_dropWhile (p := isWhiteSpace) (l := text)] at inside
    rcases List.mem_append.mp inside with front | back
    · exact List.mem_takeWhile_imp front
    · exact rest c back
  · exact fun all c inside => all c ((List.dropWhile_suffix _).subset inside)

/-- A manifest is valid when its name is not blank, its pricing is that of the gate, and it
advertises something. -/
theorem validate_eq_ok_iff (quoted : String → String) (manifest : AspManifest) :
    manifest.validate quoted = .ok () ↔
      (∃ c ∈ manifest.name.toList, isWhiteSpace c = false) ∧ manifest.pricing.model = "x402" ∧
        manifest.capabilities.entries ≠ [] := by
  have blank : ¬ trim manifest.name.toList = [] ↔
      ∃ c ∈ manifest.name.toList, isWhiteSpace c = false := by
    rw [trim_eq_nil_iff]
    simp only [not_forall, Bool.not_eq_true, exists_prop]
  rw [validate]
  simp only [guard_eq_ok, List.isEmpty_iff, blank, ne_eq, not_not]
  refine and_congr_right fun _ => and_congr_right fun _ => ?_
  split_ifs with none
  · exact iff_of_false (by rintro ⟨⟩) (not_not.mpr none)
  · exact iff_of_true rfl none

/-- Every manifest whose maps a text carries is read back from the text it is written as. From a
text that stands for a document which a text carries unchanged, a manifest is read that is written
as a text for the same document, up to the order of members, exactly when that document is an object
with the fields alone in each of its records, none of the optional ones null, and its integrations
not empty; from the text written the same manifest is read. And a manifest is valid exactly when its
name is not blank, its pricing is that of the gate, and it advertises something. -/
theorem manifest_mirrors (reader : TextReader) (readsBack : reader.ReadsBack) :
    (∀ manifest : AspManifest, manifest.Carried →
      ∃ text, manifest.toText = .ok text ∧ fromText reader text = .ok manifest) ∧
    (∀ text document manifest, reader.fromStr text = .ok document → Portable 128 document →
      fromText reader text = .ok manifest →
      ∃ written again, manifest.toText = .ok written ∧ fromText reader written = .ok manifest ∧
        reader.fromStr written = .ok again ∧
        (again.SameUpToOrder document ↔ Mirrored document)) ∧
    ∀ (quoted : String → String) (manifest : AspManifest), manifest.validate quoted = .ok () ↔
      (∃ c ∈ manifest.name.toList, isWhiteSpace c = false) ∧ manifest.pricing.model = "x402" ∧
        manifest.capabilities.entries ≠ [] := by
  refine ⟨fun manifest carried => ?_, fun text document manifest carries portable read => ?_,
    validate_eq_ok_iff⟩
  · obtain ⟨text, written, -, read⟩ := fromStr_toText reader readsBack manifest carried
    exact ⟨text, written, read⟩
  · have typed := fromText_eq_ok reader text document manifest carries read
    obtain ⟨written, writes, again, same⟩ := fromStr_toText reader readsBack manifest
      (carried_of_read document portable manifest typed)
    exact ⟨written, _, writes, same, again,
      toJson_sameUpToOrder_iff document portable.unique manifest typed⟩

/-- A reader that takes the white space out of a text first. -/
def plainReader : TextReader where
  fromStr text :=
    match Json.read (compact .outside text.toList) with
    | none => .error "expected value"
    | some document => .ok document
  typeError _ := "missing field"

theorem plainReader_readsBack : plainReader.ReadsBack := by
  intro document portable
  have read := read_pretty document portable.integer
  simp only [plainReader, String.toList_ofList, read]

/-- A manifest with one capability. -/
def plain : AspManifest where
  manifestVersion := "1.0"
  name := "Handoff"
  description := "vault"
  version := "0.1.0"
  author := ⟨"HCC", "local"⟩
  capabilities := OrderedMap.empty.insert "audit_feed" (.string "free")
  pricing := ⟨"x402", none, some "USDC", some 500000, none, none⟩
  integrations := .empty
  sovereignty := none
  display := some ⟨"logo", "dark", "gold"⟩

/-- So it reads back from its text, which mirrors itself, and it is valid. -/
theorem manifest_mirrors_plain : ∃ text document written again,
    plain.toText = .ok text ∧ fromText plainReader text = .ok plain ∧
      plainReader.fromStr text = .ok document ∧ plain.toText = .ok written ∧
      plainReader.fromStr written = .ok again ∧
      (again.SameUpToOrder document ↔ Mirrored document) ∧
      plain.validate (fun text => text) = .ok () := by
  obtain ⟨readBack, mirrors, valid⟩ := manifest_mirrors plainReader plainReader_readsBack
  have carried : plain.Carried := by
    constructor
    · intro entry inside
      obtain rfl := List.mem_singleton.mp inside
      exact portable_string 126 (by decide) "free"
    · exact fun entry none => absurd none List.not_mem_nil
  obtain ⟨text, writes, read⟩ := readBack plain carried
  obtain rfl := Except.ok.inj writes
  have stands := plainReader_readsBack plain.toJson (portable_toJson plain carried)
  obtain ⟨written, again, writesAgain, -, readAgain, mirrored⟩ :=
    mirrors _ _ plain stands (portable_toJson plain carried) read
  exact ⟨_, _, written, again, rfl, read, stands, writesAgain, readAgain, mirrored,
    (valid _ plain).mpr ⟨⟨'H', by decide, by decide⟩, rfl, by decide⟩⟩

end AspManifest

/-! ### One capability -/

/-- One advertised capability, with whatever else its document has. -/
structure Capability where
  description : String
  endpoint : Option String
  extra : OrderedMap String Value

namespace Capability

/-- The fields a capability knows. -/
def names : List String := ["description", "endpoint"]

def cells (capability : Capability) : List (String × Option Value) :=
  ("description", some (.string capability.description)) ::
    ("endpoint", capability.endpoint.map .string) ::
      capability.extra.entries.map fun entry => (entry.1, some entry.2)

/-- What else there is follows the fields, under its own names. -/
def toJson (capability : Capability) : Value := .object (listCells capability.cells)

/-- The members a capability does not know. -/
def unknown (members : List (String × Value)) : List (String × Value) :=
  members.filter fun member => member.1 ∉ names

def fromJson : Value → Option Capability
  | .object members => do
    let description ← readField members (.required "description")
    let endpoint ← readField members (.optional "endpoint")
    return {
      description := ← description.asStr
      endpoint := ← readOptional Value.asStr endpoint
      extra := collect (unknown members) }
  | _ => none

theorem fromJson_eq_some (value : Value) (capability : Capability) :
    fromJson value = some capability ↔ ∃ members description endpoint, value = .object members ∧
      readField members (.required "description") = some description ∧
      readField members (.optional "endpoint") = some endpoint ∧
      description.asStr = some capability.description ∧
      readOptional Value.asStr endpoint = some capability.endpoint ∧
      collect (unknown members) = capability.extra := by
  cases value with
  | object members =>
    simp only [fromJson, Option.bind_eq_bind, Option.bind_eq_some_iff, Option.pure_def,
      Option.some.injEq, Value.object.injEq]
    constructor
    · rintro ⟨description, here, endpoint, there, text, textRead, address, addressRead, rfl⟩
      exact ⟨members, description, endpoint, rfl, here, there, textRead, addressRead, rfl⟩
    · rintro ⟨_, description, endpoint, rfl, here, there, textRead, addressRead, rest⟩
      refine ⟨description, here, endpoint, there, _, textRead, _, addressRead, ?_⟩
      rw [rest]
  | _ =>
    refine iff_of_false (by simp [fromJson]) ?_
    rintro ⟨members, description, endpoint, ⟨⟩, -⟩

/-- Nothing else goes by the name of a field. -/
def Apart (capability : Capability) : Prop :=
  ∀ name ∈ names, capability.extra.lookup name = none

theorem apart_iff (capability : Capability) :
    capability.Apart ↔ ∀ entry ∈ capability.extra.entries, entry.1 ∉ names := by
  constructor
  · intro apart entry inside named
    have held := (capability.extra.lookup_eq_some_iff entry.1 entry.2).mpr inside
    rw [apart entry.1 named] at held
    cases held
  · intro apart name named
    cases held : capability.extra.lookup name with
    | none => rfl
    | some value =>
      exact absurd named (apart _ ((capability.extra.lookup_eq_some_iff name value).mp held))

theorem keys_cells (capability : Capability) : capability.cells.map Prod.fst =
    "description" :: "endpoint" :: capability.extra.entries.map Prod.fst := by
  rw [cells, List.map_cons, List.map_cons, List.map_map]
  rfl

theorem nodup_keys_cells (capability : Capability) (apart : capability.Apart) :
    (capability.cells.map Prod.fst).Nodup := by
  have fresh : ∀ name ∈ names, name ∉ capability.extra.entries.map Prod.fst := by
    intro name named listed
    obtain ⟨entry, inside, rfl⟩ := List.mem_map.mp listed
    exact (apart_iff capability).mp apart entry inside named
  rw [keys_cells, List.nodup_cons, List.nodup_cons, List.mem_cons, not_or]
  exact ⟨⟨by decide, fresh _ (by decide)⟩, fresh _ (by decide), nodup_keys capability.extra⟩

/-- What a written capability has besides its fields. -/
theorem unknown_listCells (capability : Capability) : unknown (listCells capability.cells) =
    capability.extra.entries.filter fun entry => entry.1 ∉ names := by
  have rest : listCells (capability.extra.entries.map fun entry => (entry.1, some entry.2)) =
      capability.extra.entries := by
    rw [listCells, List.filterMap_map]
    exact List.filterMap_some
  cases endpoint : capability.endpoint with
  | none =>
    have listed : listCells capability.cells =
        ("description", .string capability.description) :: capability.extra.entries := by
      rw [cells, endpoint]
      exact congrArg (List.cons _) rest
    rw [listed, unknown, List.filter_cons_of_neg (by simp [names])]
  | some address =>
    have listed : listCells capability.cells = ("description", .string capability.description) ::
        ("endpoint", .string address) :: capability.extra.entries := by
      rw [cells, endpoint]
      exact congrArg (fun rest => _ :: _ :: rest) rest
    rw [listed, unknown, List.filter_cons_of_neg (by simp [names]),
      List.filter_cons_of_neg (by simp [names])]

/-- What a document reads as keeps apart. -/
theorem apart_of_read (value : Value) (capability : Capability)
    (read : fromJson value = some capability) : capability.Apart := by
  obtain ⟨members, description, endpoint, rfl, -, -, -, -, rest⟩ :=
    (fromJson_eq_some value capability).mp read
  intro name named
  cases held : capability.extra.lookup name with
  | none => rfl
  | some other =>
    rw [← rest] at held
    have inside := (List.mem_filter.mp (mem_of_lookup_collect _ name other held)).2
    exact absurd named (of_decide_eq_true inside)

/-- A capability reads back exactly when nothing it keeps goes by the name of a field. -/
theorem fromJson_toJson_iff (capability : Capability) :
    fromJson capability.toJson = some capability ↔ capability.Apart := by
  rw [toJson, fromJson_eq_some]
  constructor
  · exact fun read => apart_of_read _ capability ((fromJson_eq_some _ capability).mpr read)
  · intro apart
    have unique := nodup_keys_cells capability apart
    have uniqueMembers := unique.sublist (keys_listCells capability.cells)
    have description := lookup_listCells capability.cells unique "description" _ List.mem_cons_self
    have endpoint := lookup_listCells capability.cells unique "endpoint" _
      (List.mem_cons_of_mem _ List.mem_cons_self)
    refine ⟨_, .string capability.description, (capability.endpoint.map .string).getD .null, rfl,
      ?_, ?_, rfl, readOptional_write Value.asStr Value.string asStr_string (by simp) _, ?_⟩
    · rw [readField_eq_lookup _ uniqueMembers, Field.required, description, Option.some_or]
    · rw [readField_eq_lookup _ uniqueMembers, Field.optional, endpoint, Option.or_some]
    · rw [unknown_listCells, List.filter_eq_self.mpr fun entry inside =>
        decide_eq_true ((apart_iff capability).mp apart entry inside)]
      exact collect_entries capability.extra

/-- A capability is written back as the document it was read from exactly when that one has no null
for its endpoint. -/
theorem toJson_sameUpToOrder_iff (value : Value) (unique : value.UniqueKeys)
    (capability : Capability) (read : fromJson value = some capability) :
    capability.toJson.SameUpToOrder value ↔ value.get "endpoint" ≠ some .null := by
  have apart := apart_of_read value capability read
  obtain ⟨members, description, endpoint, rfl, here, there, text, address, rest⟩ :=
    (fromJson_eq_some value capability).mp read
  have uniqueMembers := ((uniqueKeys_object members).mp unique).1
  have uniqueUnknown : ((unknown members).map Prod.fst).Nodup :=
    uniqueMembers.sublist (List.filter_sublist.map Prod.fst)
  have kept : capability.extra.entries.Perm (unknown members) :=
    rest ▸ collect_perm (unknown members) uniqueUnknown
  rw [toJson, sameUpToOrder_listCells_iff capability.cells members
    (nodup_keys_cells capability apart) uniqueMembers]
  have listed : ∀ member ∈ members, member.1 ∈ capability.cells.map Prod.fst := by
    intro member inside
    rw [keys_cells]
    by_cases named : member.1 ∈ names
    · rcases List.mem_cons.mp named with same | named
      · exact same ▸ List.mem_cons_self
      · exact List.mem_singleton.mp named ▸ List.mem_cons_of_mem _ List.mem_cons_self
    · refine List.mem_cons_of_mem _ (List.mem_cons_of_mem _ (List.mem_map_of_mem ?_))
      exact kept.mem_iff.mpr (List.mem_filter.mpr ⟨inside, decide_eq_true named⟩)
  have others : ∀ cell ∈ capability.extra.entries.map (fun entry => (entry.1, some entry.2)),
      SameCell cell.2 (members.lookup cell.1) := by
    intro cell inside
    obtain ⟨entry, inExtra, rfl⟩ := List.mem_map.mp inside
    have inMembers := List.mem_of_mem_filter (kept.mem_iff.mp inExtra)
    rw [sameCell_some, (mem_iff_lookup members uniqueMembers entry.1 entry.2).mp inMembers]
    exact ⟨entry.2, rfl, sameUpToOrder_refl entry.2⟩
  rw [cells, List.forall_mem_cons, List.forall_mem_cons,
    sameCell_required members unique _ description asStr string _ text_written _ here text,
    sameCell_optional members unique _ endpoint asStr string _ text_written _ there address]
  constructor
  · exact fun same => same.2.2.1.1
  · exact fun present => ⟨listed, fun _ _ => trivial, ⟨present, fun _ _ => trivial⟩, others⟩

/-- A capability reads back from what it writes exactly when nothing it keeps goes by the name of a
field. What was read from a document does read back, and is written as that document, up to the
order of members, exactly when the endpoint was not null: whatever else the document has is kept. -/
theorem capability_keeps :
    (∀ capability, fromJson capability.toJson = some capability ↔ capability.Apart) ∧
    ∀ value : Value, value.UniqueKeys → ∀ capability, fromJson value = some capability →
      fromJson capability.toJson = some capability ∧
        (capability.toJson.SameUpToOrder value ↔ value.get "endpoint" ≠ some .null) :=
  ⟨fromJson_toJson_iff, fun value unique capability read =>
    ⟨(fromJson_toJson_iff capability).mpr (apart_of_read value capability read),
      toJson_sameUpToOrder_iff value unique capability read⟩⟩

/-- So for a capability with a fee. -/
theorem capability_keeps_fee :
    let document := Value.object [("fee", .string "free"), ("description", .string "mint")]
    ∃ capability, fromJson document = some capability ∧
      fromJson capability.toJson = some capability ∧
      (capability.toJson.SameUpToOrder document ↔ document.get "endpoint" ≠ some .null) := by
  intro document
  have read : fromJson document =
      some ⟨"mint", none, collect [("fee", .string "free")]⟩ := rfl
  exact ⟨_, read, capability_keeps.2 document (by simp [document]) _ read⟩

end Capability

end Hammurabi
