import PlaneRestore.Cluster.Engine
import PlaneRestore.Proofs.Text.Split
import PlaneRestore.Resource
/-!
What a deployment tells about an engine.

* An `ImageReference` has a name, and maybe a path, a tag and a digest.
  `ImageReference.imageTag_text`: of its text only the tag is read, whatever there is in the path
  and the digest.
* `flags_eq_filter`: the flags are the arguments that begin like one, and no others.
* `EngineInfo.told_by_image` puts this together for the first container of a deployment.
-/

namespace PlaneRestore

/-! ### Image references -/

/-- The parts of an image reference. -/
structure ImageReference where
  /-- What is in front of the last slash: a registry, which may have a port, and a repository. -/
  path : Option String
  name : String
  tag : Option String
  digest : Option String

namespace ImageReference

/-- The text of an image reference. -/
def text (i : ImageReference) : String :=
  (i.path.elim "" fun path => path ++ "/") ++ i.name ++ (i.tag.elim "" fun tag => ":" ++ tag)
    ++ i.digest.elim "" fun digest => "@" ++ digest

/-- The parts can be told apart. A path may have slashes and colons, and a digest anything. -/
structure IsProper (i : ImageReference) : Prop where
  path : ∀ path, i.path = some path → '@' ∉ path.toList
  name : '/' ∉ i.name.toList ∧ ':' ∉ i.name.toList ∧ '@' ∉ i.name.toList
  tag : ∀ tag, i.tag = some tag → '/' ∉ tag.toList ∧ '@' ∉ tag.toList

/-- What is in front of the name. -/
def front (i : ImageReference) : List Char := i.path.elim [] fun path => path.toList ++ ['/']

/-- The name, with the tag. -/
def lastSegment (i : ImageReference) : List Char :=
  i.name.toList ++ i.tag.elim [] fun tag => ':' :: tag.toList

variable {i : ImageReference}

theorem toList_text (i : ImageReference) :
    i.text.toList =
      i.front ++ i.lastSegment ++ i.digest.elim [] fun digest => '@' :: digest.toList := by
  rw [text, front, lastSegment]
  cases i.path <;> cases i.tag <;> cases i.digest <;> simp

theorem IsProper.at_not_mem (h : i.IsProper) : '@' ∉ i.front ++ i.lastSegment := by
  have hfront : '@' ∉ i.front := by
    rw [front]
    cases hpath : i.path with
    | none => simp
    | some path => simpa using h.path path hpath
  have hlast : '@' ∉ i.lastSegment := by
    rw [lastSegment]
    cases htag : i.tag with
    | none => simpa using h.name.2.2
    | some tag => simpa using ⟨h.name.2.2, (h.tag tag htag).2⟩
  rw [List.mem_append, not_or]
  exact ⟨hfront, hlast⟩

theorem IsProper.slash_not_mem (h : i.IsProper) : '/' ∉ i.lastSegment := by
  rw [lastSegment]
  cases htag : i.tag with
  | none => simpa using h.name.1
  | some tag => simpa using ⟨h.name.1, (h.tag tag htag).1⟩

/-- In front of the digest there is all the rest. -/
theorem IsProper.takeWhile_text (h : i.IsProper) :
    i.text.toList.takeWhile (· ≠ '@') = i.front ++ i.lastSegment := by
  rw [toList_text]
  -- the digest may have further signs like the one in front of it, so the first one counts
  cases i.digest with
  | none =>
    rw [Option.elim_none, List.append_nil]
    exact Text.takeWhile_ne_of_not_mem h.at_not_mem
  | some digest => exact Text.takeWhile_ne_append h.at_not_mem digest.toList

/-- The last segment has no part of the path. -/
theorem IsProper.afterLast_eq (h : i.IsProper) :
    Text.afterLast '/' (i.front ++ i.lastSegment) = i.lastSegment := by
  rw [front]
  cases i.path with
  | none => exact Text.afterLast_of_not_mem h.slash_not_mem
  | some path =>
    rw [Option.elim_some, List.append_assoc, List.singleton_append]
    exact Text.afterLast_append path.toList h.slash_not_mem

/-- What is read of a reference is its tag. -/
theorem IsProper.imageTag_text (h : i.IsProper) : imageTag i.text = i.tag.getD "" := by
  have hcut : imageTag i.text
      = ((Text.splitFirst ':' i.lastSegment).map fun p => String.ofList p.2).getD "" := by
    rw [imageTag, h.takeWhile_text, h.afterLast_eq]
  rw [hcut, lastSegment]
  cases i.tag with
  | none =>
    rw [Option.elim_none, List.append_nil, Text.splitFirst_eq_none_iff.mpr h.name.2.1]
    rfl
  | some tag =>
    rw [Option.elim_some, Text.splitFirst_eq_some_iff.mpr ⟨rfl, h.name.2.1⟩, Option.map_some,
      String.ofList_toList]

end ImageReference

/-! ### Flags -/

/-- An argument that turns a feature on. -/
def IsFlag (v : Json) : Prop := ∃ feature, v = .string (featureFlagStart ++ feature)

theorem isFlag_string_iff {s : String} :
    IsFlag (.string s) ↔ featureFlagStart.toList <+: s.toList := by
  constructor
  · rintro ⟨feature, h⟩
    obtain rfl := Json.string.inj h
    exact ⟨feature.toList, by simp⟩
  · rintro ⟨cs, hcs⟩
    refine ⟨String.ofList cs, congrArg Json.string (String.toList_inj.mp ?_)⟩
    rw [← hcs, String.toList_append, String.toList_ofList]

instance : DecidablePred IsFlag
  | .string _ => decidable_of_iff _ isFlag_string_iff.symm
  | .null | .bool _ | .number _ | .array _ | .object _ => isFalse (by rintro ⟨feature, ⟨⟩⟩)

/-- Of the arguments those are kept that are texts and begin like a flag. -/
theorem flags_eq_filter (arguments : List Json) :
    ((arguments.filterMap Json.string?).filter (·.startsWith featureFlagStart)).map Json.string
      = arguments.filter fun v => IsFlag v := by
  induction arguments with
  | nil => rfl
  | cons v arguments ih =>
    cases v with
    | string s =>
      have htext : Json.string? (.string s) = some s := rfl
      rw [List.filterMap_cons_some htext, List.filter_cons, List.filter_cons]
      by_cases hs : IsFlag (.string s)
      · have hstart := String.startsWith_string_iff.mpr (isFlag_string_iff.mp hs)
        rw [if_pos hstart, if_pos (decide_eq_true hs), List.map_cons, ih]
      · have hstart : ¬s.startsWith featureFlagStart = true := fun h =>
          hs (isFlag_string_iff.mpr (String.startsWith_string_iff.mp h))
        rw [if_neg hstart, if_neg (by simpa using hs), ih]
    | null | bool | number | array | object => exact ih

namespace EngineInfo

/-- What a container tells about the engine that runs in it. -/
theorem ofDeployment_eq {deployment container : Json} {image : String}
    (hcontainer : deployment.at? ["spec", "template", "spec", "containers", "0"] = some container)
    (himage : container.member? "image" = some (.string image)) :
    ofDeployment deployment =
      if imageTag image = "" then .error (.noEngineVersion image)
      else .ok ⟨imageTag image, ((Resource.arrayMember "args" container).filterMap
        Json.string?).filter (·.startsWith featureFlagStart)⟩ := by
  have himage : ((container.member? "image").bind Json.string?).getD "" = image := by
    rw [himage]
    rfl
  rw [ofDeployment, hcontainer]
  simp only [himage]
  split
  · rfl
  · rfl

/-- What an image reference and the arguments beside it tell about an engine. -/
structure ToldBy (i : ImageReference) (arguments : List Json)
    (told : Except InvalidResource EngineInfo) : Prop where
  /-- A tag is the version, and the flags are the arguments that are flags, in their order. -/
  tagged : ∀ tag, i.tag = some tag → tag ≠ "" → ∃ flags, told = .ok ⟨tag, flags⟩ ∧
    flags.map Json.string = arguments.filter fun v => IsFlag v
  /-- Without a tag there is no version, whatever the path and the digest may be. -/
  untagged : (∀ tag, i.tag = some tag → tag = "") → told = .error (.noEngineVersion i.text)
  /-- Nothing else is ever taken for the version. -/
  version : ∀ info, told = .ok info → i.tag = some info.version

/-- **The version of an engine is the tag of its image.** Of the image of the first container the
tag is read, and no part of the path or the digest, whatever separators these have; without a tag
the version is not found out. The flags are the arguments of the container that are written like
flags. -/
theorem told_by_image {deployment container : Json} {i : ImageReference} (hi : i.IsProper)
    (hcontainer : deployment.at? ["spec", "template", "spec", "containers", "0"] = some container)
    (himage : container.member? "image" = some (.string i.text)) :
    ToldBy i (Resource.arrayMember "args" container) (ofDeployment deployment) := by
  -- all depends on the tag: whether there is one, and whether it is empty
  rw [ofDeployment_eq hcontainer himage, hi.imageTag_text]
  refine ⟨fun tag htag hne => ?_, fun hnone => ?_, fun info hinfo => ?_⟩
  · rw [htag, Option.getD_some, if_neg hne]
    exact ⟨_, rfl, flags_eq_filter _⟩
  · cases htag : i.tag with
    | none => rfl
    | some tag => exact if_pos (hnone tag htag)
  · cases htag : i.tag with
    | none =>
      rw [htag] at hinfo
      cases hinfo
    | some tag =>
      rw [htag, Option.getD_some] at hinfo
      split at hinfo
      · cases hinfo
      · cases hinfo
        rfl

end EngineInfo

namespace Sample

/-- A reference with all parts, in which each separator occurs more than once. -/
def engineImage : ImageReference :=
  ⟨some "registry.example.io:5000/example", "engine", some "v1.14.0:x", some "sha256:0a4a@b/c:d"⟩

/-- A container with this image, and with two flags among its arguments. -/
def engineContainer : Json :=
  .object [("args", .array [.string "core", .string "--enable-usages", .bool true,
    .string "--debug", .string "--enable-realtime-compositions"]),
    ("image", .string engineImage.text)]

def imageDeployment : Json :=
  .object [("spec", .object [("template", .object [("spec", .object
    [("containers", .array [engineContainer])])])])]

theorem isProper_engineImage : engineImage.IsProper where
  path := by
    rintro path ⟨⟩
    decide +kernel
  name := by decide +kernel
  tag := by
    rintro tag ⟨⟩
    decide +kernel

end Sample

open Sample in
theorem EngineInfo.told_by_image_sample :
    ∃ flags, EngineInfo.ofDeployment imageDeployment = .ok ⟨"v1.14.0:x", flags⟩ ∧
      flags.map Json.string
        = [.string "--enable-usages", .string "--enable-realtime-compositions"] := by
  have htold : ToldBy engineImage (Resource.arrayMember "args" engineContainer)
      (ofDeployment imageDeployment) := told_by_image isProper_engineImage rfl rfl
  exact htold.tagged "v1.14.0:x" rfl (by decide)

end PlaneRestore
