import ResourceLookup.Text.Basic

/-!
# Loader configuration

A loader is configured by a document of settings. What it does not mention keeps its default,
and what the loader does not know is ignored; a setting of the wrong form spoils the whole
document.
-/

namespace ResourceLookup

/-- A document of settings. -/
inductive Setting where
  | null
  | flag (value : Bool)
  /-- A number. No setting of a loader is one. -/
  | number
  | text (value : Text)
  | list (items : List Setting)
  | record (fields : List (Text × Setting))
deriving Inhabited

namespace Setting

/-- The truth value that a setting is. -/
def asFlag? : Setting → Option Bool
  | flag value => some value
  | _ => none

/-- The text that a setting is. -/
def asText? : Setting → Option Text
  | text value => some value
  | _ => none

/-- The list of texts that a setting is. -/
def asTexts? : Setting → Option (List Text)
  | list items => items.mapM asText?
  | _ => none

/-- The text that a setting is, where it may be left open by `null`. -/
def asOpenText? : Setting → Option (Option Text)
  | null => some none
  | setting => setting.asText?.map some

end Setting

/-- Where a loader looks for files, and which resource names further files. -/
structure LoaderConfig where
  /-- The directories in which relative names are looked up, in order. -/
  searchPaths : List Text
  /-- The key of the resource that names the files to load after the first one. -/
  chainProperty : Option Text
  /-- Whether to warn about further files that are not found. -/
  verbose : Bool
deriving DecidableEq, Repr

namespace LoaderConfig

/-- The configuration of a loader that looks in the working directory and loads no further
files. -/
def standard : LoaderConfig := ⟨[['.']], none, false⟩

instance : Inhabited LoaderConfig := ⟨standard⟩

/-- A field of a document, or its default where the document does not mention it. -/
def fieldOr {α : Type} (read : Setting → Option α) (default : α) (name : String)
    (fields : List (Text × Setting)) : Option α :=
  match fields.lookup name.toList with
  | none => some default
  | some setting => read setting

/-- The configuration that a document describes. -/
def ofSetting? : Setting → Option LoaderConfig
  | .record fields => do
    let searchPaths ← fieldOr Setting.asTexts? standard.searchPaths "search_paths" fields
    let chainProperty ←
      fieldOr Setting.asOpenText? standard.chainProperty "chain_property" fields
    let verbose ← fieldOr Setting.asFlag? standard.verbose "verbose" fields
    return ⟨searchPaths, chainProperty, verbose⟩
  | _ => none

/-- The document that describes a configuration. -/
def toSetting (config : LoaderConfig) : Setting :=
  .record [
    ("search_paths".toList, .list (config.searchPaths.map .text)),
    ("chain_property".toList, (config.chainProperty.map Setting.text).getD .null),
    ("verbose".toList, .flag config.verbose)]

private theorem mapM_asText?_text (texts : List Text) :
    texts.mapM (Setting.asText? ∘ Setting.text) = some texts := by
  induction texts with
  | nil => rfl
  | cons t texts ih => simp [ih, Setting.asText?]

/-- The document of a configuration describes it. -/
theorem ofSetting?_toSetting (config : LoaderConfig) :
    ofSetting? config.toSetting = some config := by
  obtain ⟨searchPaths, chainProperty, verbose⟩ := config
  cases chainProperty <;>
    simp [toSetting, ofSetting?, fieldOr, List.lookup_cons, Setting.asTexts?, Setting.asOpenText?,
      Setting.asFlag?, Setting.asText?, mapM_asText?_text]

end LoaderConfig

end ResourceLookup
