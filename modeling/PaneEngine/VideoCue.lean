import PaneEngine.Json.Decode

/-!
# Video cues

## Main definitions

* `VideoCue` — a request to start a video at a given second;
* `VideoCue.toJson`, `VideoCue.ofJson?` — cues as JSON.
-/

namespace PaneEngine

/-- A request to start a video. -/
structure VideoCue where
  /-- The second to start at, a number of 32 bits. -/
  seconds : Nat
  videoId : Option String
  /-- The page that shows the video. -/
  slug : Option String
  /-- Whether that page is a context page. -/
  isContext : Bool
deriving DecidableEq

namespace VideoCue

/-- The document of a cue. -/
def toJson (c : VideoCue) : Json :=
  .objectOf [("t", some (.nat c.seconds)), ("videoId", c.videoId.map .string),
    ("slug", c.slug.map .string), ("isContext", some (.bool c.isContext))]

/-- The cue of a document. -/
def ofJson? (j : Json) : Option VideoCue := do
  let fields ← j.record? ["t", "videoId", "slug", "isContext"]
  return {
    seconds := ← Json.required fields "t" (Json.natBelow? 32)
    videoId := ← Json.optional fields "videoId" Json.string?
    slug := ← Json.optional fields "slug" Json.string?
    isContext := ← Json.defaulted fields "isContext" Json.bool? false }

end VideoCue

end PaneEngine
