import PlaneRestore.ClientError
import PlaneRestore.Export
import PlaneRestore.Text.Split
/-!
What the deployment of an engine tells about the engine.

`imageTag` is the tag of an image reference; `EngineInfo.ofDeployment` reads a deployment.
-/

namespace PlaneRestore

/-- The tag of an image reference: in front of a digest, and after the colon of the last segment.
A reference without a tag has the empty one. -/
def imageTag (image : String) : String :=
  let name := image.toList.takeWhile (· ≠ '@')
  let last := Text.afterLast '/' name
  ((Text.splitFirst ':' last).map fun (_, tag) => String.ofList tag).getD ""

/-- Arguments that start like this are feature flags. -/
def featureFlagStart : String := "--enable-"

/-- Version and flags of the engine, by the first container of its deployment. -/
def EngineInfo.ofDeployment (deployment : Json) : Except InvalidResource EngineInfo :=
  match deployment.at? ["spec", "template", "spec", "containers", "0"] with
  | none => throw .noContainers
  | some container =>
    let image := ((container.member? "image").bind Json.string?).getD ""
    let version := imageTag image
    let arguments := ((container.member? "args").bind Json.array?).getD []
    let flags := (arguments.filterMap Json.string?).filter (·.startsWith featureFlagStart)
    if version = "" then throw (.noEngineVersion image) else return ⟨version, flags⟩

end PlaneRestore
