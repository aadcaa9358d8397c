import EntityLink.Settings.File
import Mathlib.Data.List.Basic

namespace EntityLink.Settings
open Text

/-- The name of one setting. -/
inductive Key
  | validationMode
  | inferInverseByName
  | detectCycles
  | circularGuard
  | generateHelpers
  | generateValidation
  | persistenceNamespace
  | indentWidth
  deriving DecidableEq, Repr

namespace Key

/-- What a setting can be. -/
abbrev Value : Key → Type
  | validationMode => ValidationMode
  | persistenceNamespace => PersistenceNamespace
  | indentWidth => Nat
  | inferInverseByName | detectCycles | circularGuard | generateHelpers | generateValidation => Bool

/-- The environment variable that sets a key. What is generated is not set there. -/
def environmentName? : Key → Option String
  | validationMode => some "RELSYNC_VALIDATION_MODE"
  | inferInverseByName => some "RELSYNC_INFER_INVERSE_BY_NAME"
  | detectCycles => some "RELSYNC_DETECT_CYCLES"
  | persistenceNamespace => some "RELSYNC_PERSISTENCE_NAMESPACE"
  | indentWidth => some "RELSYNC_INDENT_WIDTH"
  | circularGuard | generateHelpers | generateValidation => none

/-- A value of a key from its text. -/
def parse? (text : String) : (k : Key) → Option k.Value
  | validationMode => (ValidationMode.parse text).toOption
  | persistenceNamespace => (PersistenceNamespace.parse text).toOption
  | indentWidth => parseCount? text
  | inferInverseByName => parseBool? text
  | detectCycles => parseBool? text
  | circularGuard => parseBool? text
  | generateHelpers => parseBool? text
  | generateValidation => parseBool? text

/-- What an environment variable assigns to a key: the value that its trimmed text is read as,
where it is the variable of that key. -/
def assigned? (k : Key) (v : String × String) : Option k.Value :=
  if k.environmentName? = some v.1 then parse? (trim v.2) k else none

end Key

def get (s : Settings) : (k : Key) → k.Value
  | .validationMode => s.validationMode
  | .inferInverseByName => s.inferInverseByName
  | .detectCycles => s.detectCycles
  | .circularGuard => s.circularGuard
  | .generateHelpers => s.generateHelpers
  | .generateValidation => s.generateValidation
  | .persistenceNamespace => s.persistenceNamespace
  | .indentWidth => s.indentWidth

def Overlay.get? (o : Overlay) : (k : Key) → Option k.Value
  | .validationMode => o.validationMode
  | .inferInverseByName => o.inferInverseByName
  | .detectCycles => o.detectCycles
  | .circularGuard => o.circularGuard
  | .generateHelpers => o.generateHelpers
  | .generateValidation => o.generateValidation
  | .persistenceNamespace => o.persistenceNamespace
  | .indentWidth => o.indentWidth

/-- The values that a layer assigns to a key, in the order of their assignment. -/
def Layer.assigned (read : String → Option Overlay) (k : Key) : Layer → List k.Value
  | .file text => ((read text).bind (·.get? k)).toList
  | .environment vs => vs.filterMap k.assigned?

variable {read : String → Option Overlay} {s t : Settings}

theorem ext_get (h : ∀ k, s.get k = t.get k) : s = t := by
  cases s
  cases t
  simp only [mk.injEq]
  exact ⟨h .validationMode,h .inferInverseByName,h .detectCycles,h .circularGuard,
    h .generateHelpers,h .generateValidation,h .persistenceNamespace,h .indentWidth⟩

theorem get_overlay (s : Settings) (o : Overlay) (k : Key) :
    (s.overlay o).get k = (o.get? k).getD (s.get k) := by
  cases k <;> rfl

/-- A variable sets the key whose variable it is, and nothing else. -/
theorem Overlay.get?_ofVariable (name value : String) (k : Key) :
    (ofVariable name value).get? k = k.assigned? (name,value) := by
  unfold ofVariable Key.assigned?
  split
  case h_6 =>
    have hother : k.environmentName? ≠ some name := by
      cases k <;> grind [Key.environmentName?]
    rw [if_neg hother]
    cases k <;> rfl
  all_goals cases k <;> simp [Key.environmentName?,Key.parse?,get?]

section Layers

/-- One layer lays overlays over the settings below, one after another. -/
def Layer.overlays (read : String → Option Overlay) : Layer → List Overlay
  | .file text => (read text).toList
  | .environment vs => vs.map (fun v => .ofVariable v.1 v.2)

theorem withLayer_eq_foldl (s : Settings) (layer : Layer) :
    s.withLayer read layer = (layer.overlays read).foldl overlay s := by
  cases layer with
  | file text =>
    rw [withLayer,merge?,Layer.overlays]
    cases read text with
    | none => rfl
    | some o => rfl
  | environment vs => rw [withLayer,withVariables,Layer.overlays,List.foldl_map]

theorem Layer.filterMap_overlays (layer : Layer) (k : Key) :
    (layer.overlays read).filterMap (·.get? k) = layer.assigned read k := by
  cases layer with
  | file text =>
    rw [overlays,assigned]
    cases read text with
    | none => rfl
    | some o => cases h : o.get? k <;> simp [h]
  | environment vs =>
    rw [overlays,assigned,List.filterMap_map]
    exact List.filterMap_congr (fun v _ => Overlay.get?_ofVariable v.1 v.2 k)

/-- Of overlays one after another the last that has a key counts for it. -/
theorem get_foldl_overlay (s : Settings) (os : List Overlay) (k : Key) :
    (os.foldl overlay s).get k = ((os.filterMap (·.get? k)).getLast?).getD (s.get k) := by
  induction os generalizing s with
  | nil => rfl
  | cons o os ih =>
    rw [List.foldl_cons,ih,get_overlay,List.filterMap_cons]
    cases o.get? k with
    | none => rfl
    | some v =>
      cases hlater : (os.filterMap (·.get? k)).getLast? with
      | none => simp [List.getLast?_cons,hlater]
      | some w => simp [List.getLast?_cons,hlater]

theorem foldl_withLayer_eq (s : Settings) (layers : List Layer) :
    layers.foldl (withLayer read) s = (layers.flatMap (·.overlays read)).foldl overlay s := by
  rw [List.foldl_flatMap]
  exact congrArg (fun f => layers.foldl f s) (funext₂ withLayer_eq_foldl)

theorem get_foldl_withLayer (s : Settings) (layers : List Layer) (k : Key) :
    (layers.foldl (withLayer read) s).get k =
      ((layers.flatMap (·.assigned read k)).getLast?).getD (s.get k) := by
  rw [foldl_withLayer_eq,get_foldl_overlay,List.filterMap_flatMap]
  simp only [Layer.filterMap_overlays]

theorem Key.eq_of_environmentName? {k k' : Key} {name : String}
    (h : k.environmentName? = some name) (h' : k'.environmentName? = some name) : k = k' := by
  cases k <;> cases k' <;> grind [Key.environmentName?]

theorem get_withVariables_singleton (s : Settings) (v : String × String) (k : Key) :
    (s.withVariables [v]).get k = (k.assigned? v).getD (s.get k) := by
  rw [withVariables,List.foldl_cons,List.foldl_nil,get_overlay,Overlay.get?_ofVariable]

theorem withVariables_append (s : Settings) (vs ws : List (String × String)) :
    s.withVariables (vs ++ ws) = (s.withVariables vs).withVariables ws :=
  List.foldl_append

theorem merge?_of_unread {text : String} (h : read text = none) (s : Settings) :
    s.merge? read text = none := by
  rw [merge?,h,Option.map_none]

/-- A variable assigns nothing to a key that is not its own. -/
theorem Key.assigned?_of_ne {k k' : Key} {v : String × String}
    (h : k.environmentName? = some v.1) (hother : k' ≠ k) : k'.assigned? v = none :=
  if_neg (fun h' => hother (eq_of_environmentName? h' h))

/-- A variable whose text reads as no value of its key, or that no key has, sets nothing. -/
theorem withVariables_of_unread {v : String × String}
    (h : ∀ k : Key, k.environmentName? = some v.1 → Key.parse? (trim v.2) k = none)
    (s : Settings) : s.withVariables [v] = s := by
  apply ext_get
  intro k
  have hnone : k.assigned? v = none := by
    rw [Key.assigned?,ite_eq_right_iff]
    exact h k
  rw [get_withVariables_singleton,hnone,Option.getD_none]

/-- After any layers a setting has the last value that one of them assigns to it, and its first
value if none does. A file that does not read and a variable that is malformed or unknown can be
left out wherever they come. What a file or a variable does not assign stays as it is, and no
variable assigns two settings. -/
theorem withLayer_last_assigned (read : String → Option Overlay) (s : Settings) :
    (∀ (layers : List Layer) (k : Key), (layers.foldl (withLayer read) s).get k =
      ((layers.flatMap (·.assigned read k)).getLast?).getD (s.get k)) ∧
    (∀ text, read text = none → s.merge? read text = none ∧
      ∀ before after, (before ++ .file text :: after).foldl (withLayer read) s =
        (before ++ after).foldl (withLayer read) s) ∧
    (∀ v : String × String,
      (∀ k : Key, k.environmentName? = some v.1 → Key.parse? (trim v.2) k = none) →
      ∀ before after, s.withVariables (before ++ v :: after) =
        s.withVariables (before ++ after)) ∧
    (∀ text o k, read text = some o → o.get? k = none →
      (s.withLayer read (.file text)).get k = s.get k) ∧
    ∀ (v : String × String) (k k' : Key), k.environmentName? = some v.1 → k' ≠ k →
      (s.withVariables [v]).get k' = s.get k' := by
  refine ⟨get_foldl_withLayer s,?_,?_,?_,?_⟩
  · intro text hunread
    refine ⟨merge?_of_unread hunread s,fun before after => ?_⟩
    rw [List.foldl_append,List.foldl_cons,List.foldl_append,withLayer,merge?_of_unread hunread,
      Option.getD_none]
  · intro v hunread before after
    rw [List.append_cons,withVariables_append,withVariables_append,
      withVariables_of_unread hunread,← withVariables_append]
  · intro text o k hread hmissing
    rw [withLayer,merge?,hread,Option.map_some,Option.getD_some,get_overlay,hmissing,
      Option.getD_none]
  · intro v k k' hname hother
    rw [get_withVariables_singleton,Key.assigned?_of_ne hname hother,Option.getD_none]

/-- A file, variables with a width that does not read among them, and a file that does not read. -/
def mixedLayers : List Layer := [
  .file "indent_width = 2",
  .environment [("RELSYNC_INDENT_WIDTH","+8"), ("RELSYNC_INDENT_WIDTH","wide"),
    ("RELSYNC_VALIDATION_MODE"," STRICT "), ("PATH","3")],
  .file "indent_width = wide"]

/-- The width is that of the last variable that reads; the rest is untouched but for the mode. -/
theorem mixedLayers_last_assigned :
    (mixedLayers.foldl (withLayer Overlay.parse?) {}).get .indentWidth = 8 ∧
    (mixedLayers.foldl (withLayer Overlay.parse?) {}).get .validationMode = .strict ∧
    (mixedLayers.foldl (withLayer Overlay.parse?) {}).get .detectCycles = true ∧
    (Overlay.parse? "indent_width = wide" = none ∧
      merge? Overlay.parse? {} "indent_width = wide" = none) ∧
    ((∀ k : Key, k.environmentName? = some "RELSYNC_INDENT_WIDTH" →
        Key.parse? (trim "wide") k = none) ∧
      withVariables {} [("RELSYNC_INDENT_WIDTH","wide"), ("PATH","3")] =
        withVariables {} [("PATH","3")]) ∧
    (Overlay.parse? "indent_width = 2" = some { indentWidth := some 2 } ∧
      (withLayer Overlay.parse? {} (.file "indent_width = 2")).get .detectCycles = true) ∧
    (withVariables {} [("RELSYNC_INDENT_WIDTH","+8")]).get .detectCycles = true := by
  obtain ⟨hlast,hfile,hvariable,hkept,hother⟩ := withLayer_last_assigned Overlay.parse? {}
  have hread : Overlay.parse? "indent_width = 2" = some { indentWidth := some 2 } := by
    decide +kernel
  have hunread : Overlay.parse? "indent_width = wide" = none := by decide +kernel
  have hwide : ∀ k : Key, k.environmentName? = some "RELSYNC_INDENT_WIDTH" →
      Key.parse? (trim "wide") k = none := by
    intro k hk
    obtain rfl : k = .indentWidth := Key.eq_of_environmentName? hk rfl
    decide
  refine ⟨?_,?_,?_,⟨hunread,(hfile _ hunread).1⟩,⟨hwide,?_⟩,⟨hread,?_⟩,?_⟩
  · rw [hlast]
    decide +kernel
  · rw [hlast]
    decide +kernel
  · rw [hlast]
    decide +kernel
  · exact hvariable ("RELSYNC_INDENT_WIDTH","wide") hwide [] [("PATH","3")]
  · exact hkept _ _ .detectCycles hread rfl
  · exact hother ("RELSYNC_INDENT_WIDTH","+8") .indentWidth .detectCycles rfl (by decide)

end Layers

end EntityLink.Settings
