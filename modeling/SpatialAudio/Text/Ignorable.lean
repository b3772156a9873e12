import SpatialAudio.Text.CodePoints

/-!
# Text/Ignorable — code points that a text is drawn without

The property `Default_Ignorable_Code_Point` of Unicode 17: joiners, selectors, tags, and the Hangul
fillers, which are letters by their general category but have nothing to show.
-/

namespace SpatialAudio.Text

/-- The code points that are left out when a text is drawn. -/
def ignorable : CodePoints where
  ranges :=
    [(0xad, 0xad), (0x34f, 0x34f), (0x61c, 0x61c), (0x115f, 0x1160), (0x17b4, 0x17b5),
     (0x180b, 0x180f), (0x200b, 0x200f), (0x202a, 0x202e), (0x2060, 0x206f), (0x3164, 0x3164),
     (0xfe00, 0xfe0f), (0xfeff, 0xfeff), (0xffa0, 0xffa0), (0xfff0, 0xfff8), (0x1bca0, 0x1bca3),
     (0x1d173, 0x1d17a), (0xe0000, 0xe0fff)]

/-- The ranges are ascending and apart. -/
theorem ascending_ignorable : CodePoints.ascending 0 ignorable.ranges = true := by
  decide +kernel

end SpatialAudio.Text
