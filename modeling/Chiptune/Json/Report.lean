/-
What a conversion reports, as JSON. Percentages are given by their bits.
-/
import Chiptune.Accuracy
import Chiptune.Failure
import Chiptune.Json.Value

namespace Chiptune

open Json

def Degradation.toJson (d : Degradation) : Json :=
  ofMembers [("kind", Json.text d.kind.name), ("message", Json.text d.message),
    ("lossy", .bool d.isLossy), ("text", Json.text d.text)]

namespace Accuracy

def Difference.toJson (d : Difference) : Json :=
  ofMembers [("register", text d.register.name), ("original", byte d.source),
    ("converted", byte d.converted)]

def DivergentFrame.toJson (f : DivergentFrame) : Json :=
  ofMembers [("frame", nat f.frame), ("registers", list Difference.toJson f.registers)]

def Report.toJson (r : Report) : Json :=
  ofMembers [("frames", nat r.frames), ("score", floatBits r.score),
    ("frame_match", floatBits r.frameMatch), ("voice_match", floatBits r.voiceMatch),
    ("register_match", floatBits r.registerMatch), ("filter_match", floatBits r.filterMatch),
    ("original_writes", nat r.sourceWrites), ("converted_writes", nat r.convertedWrites),
    ("first_divergence", nullable nat r.firstDivergence),
    ("divergent_frames", list DivergentFrame.toJson r.divergent)]

end Accuracy

end Chiptune
