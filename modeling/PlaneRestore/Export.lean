import PlaneRestore.Condition
import PlaneRestore.Timestamp
/-!
The record about an export, and what is known about the engine of a control plane.
-/

namespace PlaneRestore

/-- The name of the file with the record, in the root of an archive. -/
def exportMetaFile : String := "export.yaml"

/-- What an export was restricted to. -/
structure ExportOptions where
  includedNamespaces : List String
  excludedNamespaces : List String
  includedResources : List String
  excludedResources : List String
  pausedBeforeExport : Bool
deriving DecidableEq, Repr, Inhabited

namespace ExportOptions

def none : ExportOptions := ⟨[], [], [], [], false⟩

def shape : Shape ExportOptions :=
  Fields.record "ExportOptions"
    (.field "includedNamespaces" (.list .text) (.gives []) <|
      .field "excludedNamespaces" (.list .text) (.gives []) <|
      .field "includedResources" (.list .text) (.gives []) <|
      .field "excludedResources" (.list .text) (.gives []) <|
      .field "pausedBeforeExport" .flag (.gives false) .done)
    fun (includedSpaces, excludedSpaces, included, excluded, paused, _) =>
      ⟨includedSpaces, excludedSpaces, included, excluded, paused⟩

def toJson (o : ExportOptions) : Json :=
  .ofEntries [("includedNamespaces", .ofStrings o.includedNamespaces),
    ("excludedNamespaces", .ofStrings o.excludedNamespaces),
    ("includedResources", .ofStrings o.includedResources),
    ("excludedResources", .ofStrings o.excludedResources),
    ("pausedBeforeExport", .bool o.pausedBeforeExport)]

end ExportOptions

/-- How many resources were exported. -/
structure ExportStats where
  total : Nat
  nativeResources : List (String × Nat)
  customResources : List (String × Nat)
deriving DecidableEq, Repr, Inhabited

namespace ExportStats

def zero : ExportStats := ⟨0, [], []⟩

def shape : Shape ExportStats :=
  Fields.record "ExportStats"
    (.field "total" (.count "usize") (.gives 0) <|
      .field "nativeResources" (.table (.count "usize")) (.gives []) <|
      .field "customResources" (.table (.count "usize")) (.gives []) .done)
    fun (total, native, custom, _) => ⟨total, native, custom⟩

def toJson (s : ExportStats) : Json :=
  .ofEntries [("total", .ofNat s.total), ("nativeResources", .ofCounts s.nativeResources),
    ("customResources", .ofCounts s.customResources)]

end ExportStats

/-- The record about an export. -/
structure ExportMeta where
  /-- The version of the format. -/
  version : Option String
  exportedAt : Option Timestamp
  /-- The version of the engine that was exported. -/
  engineVersion : String
  featureFlags : List String
  distribution : Option String
  /-- Where the engine was installed. -/
  space : Option String
  options : ExportOptions
  stats : ExportStats
deriving DecidableEq, Repr, Inhabited

namespace ExportMeta

def shape : Shape ExportMeta :=
  Fields.record "ExportMeta"
    (.field "version" (.optional .text) (.gives none) <|
      .field "exportedAt" (.optional Timestamp.shape) (.gives none) <|
      .field "engineVersion" .text .isError <|
      .field "featureFlags" (.list .text) (.gives []) <|
      .field "distribution" (.optional .text) (.gives none) <|
      .field "namespace" (.optional .text) (.gives none) <|
      .field "options" ExportOptions.shape (.gives .none) <|
      .field "stats" ExportStats.shape (.gives .zero) .done)
    fun (version, exportedAt, engineVersion, flags, distribution, space, options, stats, _) =>
      ⟨version, exportedAt, engineVersion, flags, distribution, space, options, stats⟩

def toJson (m : ExportMeta) : Json :=
  .ofEntries (Json.textMember "version" m.version
    ++ Json.textMember "exportedAt" (m.exportedAt.map Timestamp.render)
    ++ Json.textMember "distribution" m.distribution
    ++ Json.textMember "namespace" m.space
    ++ [("engineVersion", .string m.engineVersion), ("featureFlags", .ofStrings m.featureFlags),
      ("options", m.options.toJson), ("stats", m.stats.toJson)])

end ExportMeta

/-- What is known about the engine of a control plane. -/
structure EngineInfo where
  version : String
  featureFlags : List String
deriving DecidableEq, Repr, Inhabited

namespace EngineInfo

def hasFeatureFlag (e : EngineInfo) (flag : String) : Bool := e.featureFlags.contains flag

def shape : Shape EngineInfo :=
  Fields.record "EngineInfo"
    (.field "version" .text .isError <| .field "featureFlags" (.list .text) (.gives []) .done)
    fun (version, flags, _) => ⟨version, flags⟩

def toJson (e : EngineInfo) : Json :=
  .ofEntries [("version", .string e.version), ("featureFlags", .ofStrings e.featureFlags)]

end EngineInfo

end PlaneRestore
