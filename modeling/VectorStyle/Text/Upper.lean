/-!
# Upper case

Upper-casing replaces each character by its full upper-case form, which may be several characters:
`ı` becomes `I` and `ß` becomes `SS`. Most forms of the table are runs of letters at one distance
from their capitals; the forms of more than one character are listed one by one.

Main statement: `upper_of_ascii`, on ASCII the full mapping is the one of core.
-/

set_option autoImplicit false

namespace VectorStyle.Text

/-- Letters with a capital of one character: the letters of a range at a given stride, and the
distance from each to its capital. -/
structure CaseRun where
  first : Nat
  last : Nat
  stride : Nat
  distance : Int

/-- The letters beyond ASCII whose capital is one character. -/
def caseRuns : List CaseRun := [
  ⟨0xb5, 0xb5, 1, 0x2e7⟩, ⟨0xe0, 0xf6, 1, -0x20⟩, ⟨0xf8, 0xfe, 1, -0x20⟩, ⟨0xff, 0xff, 1, 0x79⟩,
  ⟨0x101, 0x12f, 2, -0x1⟩, ⟨0x131, 0x131, 1, -0xe8⟩, ⟨0x133, 0x137, 2, -0x1⟩,
  ⟨0x13a, 0x148, 2, -0x1⟩, ⟨0x14b, 0x177, 2, -0x1⟩, ⟨0x17a, 0x17e, 2, -0x1⟩,
  ⟨0x17f, 0x17f, 1, -0x12c⟩, ⟨0x180, 0x180, 1, 0xc3⟩, ⟨0x183, 0x185, 2, -0x1⟩,
  ⟨0x188, 0x188, 1, -0x1⟩, ⟨0x18c, 0x18c, 1, -0x1⟩, ⟨0x192, 0x192, 1, -0x1⟩,
  ⟨0x195, 0x195, 1, 0x61⟩, ⟨0x199, 0x199, 1, -0x1⟩, ⟨0x19a, 0x19a, 1, 0xa3⟩,
  ⟨0x19e, 0x19e, 1, 0x82⟩, ⟨0x1a1, 0x1a5, 2, -0x1⟩, ⟨0x1a8, 0x1a8, 1, -0x1⟩,
  ⟨0x1ad, 0x1ad, 1, -0x1⟩, ⟨0x1b0, 0x1b0, 1, -0x1⟩, ⟨0x1b4, 0x1b6, 2, -0x1⟩,
  ⟨0x1b9, 0x1b9, 1, -0x1⟩, ⟨0x1bd, 0x1bd, 1, -0x1⟩, ⟨0x1bf, 0x1bf, 1, 0x38⟩,
  ⟨0x1c5, 0x1c5, 1, -0x1⟩, ⟨0x1c6, 0x1c6, 1, -0x2⟩, ⟨0x1c8, 0x1c8, 1, -0x1⟩,
  ⟨0x1c9, 0x1c9, 1, -0x2⟩, ⟨0x1cb, 0x1cb, 1, -0x1⟩, ⟨0x1cc, 0x1cc, 1, -0x2⟩,
  ⟨0x1ce, 0x1dc, 2, -0x1⟩, ⟨0x1dd, 0x1dd, 1, -0x4f⟩, ⟨0x1df, 0x1ef, 2, -0x1⟩,
  ⟨0x1f2, 0x1f2, 1, -0x1⟩, ⟨0x1f3, 0x1f3, 1, -0x2⟩, ⟨0x1f5, 0x1f5, 1, -0x1⟩,
  ⟨0x1f9, 0x21f, 2, -0x1⟩, ⟨0x223, 0x233, 2, -0x1⟩, ⟨0x23c, 0x23c, 1, -0x1⟩,
  ⟨0x23f, 0x240, 1, 0x2a3f⟩, ⟨0x242, 0x242, 1, -0x1⟩, ⟨0x247, 0x24f, 2, -0x1⟩,
  ⟨0x250, 0x250, 1, 0x2a1f⟩, ⟨0x251, 0x251, 1, 0x2a1c⟩, ⟨0x252, 0x252, 1, 0x2a1e⟩,
  ⟨0x253, 0x253, 1, -0xd2⟩, ⟨0x254, 0x254, 1, -0xce⟩, ⟨0x256, 0x257, 1, -0xcd⟩,
  ⟨0x259, 0x259, 1, -0xca⟩, ⟨0x25b, 0x25b, 1, -0xcb⟩, ⟨0x25c, 0x25c, 1, 0xa54f⟩,
  ⟨0x260, 0x260, 1, -0xcd⟩, ⟨0x261, 0x261, 1, 0xa54b⟩, ⟨0x263, 0x263, 1, -0xcf⟩,
  ⟨0x265, 0x265, 1, 0xa528⟩, ⟨0x266, 0x266, 1, 0xa544⟩, ⟨0x268, 0x268, 1, -0xd1⟩,
  ⟨0x269, 0x269, 1, -0xd3⟩, ⟨0x26a, 0x26a, 1, 0xa544⟩, ⟨0x26b, 0x26b, 1, 0x29f7⟩,
  ⟨0x26c, 0x26c, 1, 0xa541⟩, ⟨0x26f, 0x26f, 1, -0xd3⟩, ⟨0x271, 0x271, 1, 0x29fd⟩,
  ⟨0x272, 0x272, 1, -0xd5⟩, ⟨0x275, 0x275, 1, -0xd6⟩, ⟨0x27d, 0x27d, 1, 0x29e7⟩,
  ⟨0x280, 0x280, 1, -0xda⟩, ⟨0x282, 0x282, 1, 0xa543⟩, ⟨0x283, 0x283, 1, -0xda⟩,
  ⟨0x287, 0x287, 1, 0xa52a⟩, ⟨0x288, 0x288, 1, -0xda⟩, ⟨0x289, 0x289, 1, -0x45⟩,
  ⟨0x28a, 0x28b, 1, -0xd9⟩, ⟨0x28c, 0x28c, 1, -0x47⟩, ⟨0x292, 0x292, 1, -0xdb⟩,
  ⟨0x29d, 0x29d, 1, 0xa515⟩, ⟨0x29e, 0x29e, 1, 0xa512⟩, ⟨0x345, 0x345, 1, 0x54⟩,
  ⟨0x371, 0x373, 2, -0x1⟩, ⟨0x377, 0x377, 1, -0x1⟩, ⟨0x37b, 0x37d, 1, 0x82⟩,
  ⟨0x3ac, 0x3ac, 1, -0x26⟩, ⟨0x3ad, 0x3af, 1, -0x25⟩, ⟨0x3b1, 0x3c1, 1, -0x20⟩,
  ⟨0x3c2, 0x3c2, 1, -0x1f⟩, ⟨0x3c3, 0x3cb, 1, -0x20⟩, ⟨0x3cc, 0x3cc, 1, -0x40⟩,
  ⟨0x3cd, 0x3ce, 1, -0x3f⟩, ⟨0x3d0, 0x3d0, 1, -0x3e⟩, ⟨0x3d1, 0x3d1, 1, -0x39⟩,
  ⟨0x3d5, 0x3d5, 1, -0x2f⟩, ⟨0x3d6, 0x3d6, 1, -0x36⟩, ⟨0x3d7, 0x3d7, 1, -0x8⟩,
  ⟨0x3d9, 0x3ef, 2, -0x1⟩, ⟨0x3f0, 0x3f0, 1, -0x56⟩, ⟨0x3f1, 0x3f1, 1, -0x50⟩,
  ⟨0x3f2, 0x3f2, 1, 0x7⟩, ⟨0x3f3, 0x3f3, 1, -0x74⟩, ⟨0x3f5, 0x3f5, 1, -0x60⟩,
  ⟨0x3f8, 0x3f8, 1, -0x1⟩, ⟨0x3fb, 0x3fb, 1, -0x1⟩, ⟨0x430, 0x44f, 1, -0x20⟩,
  ⟨0x450, 0x45f, 1, -0x50⟩, ⟨0x461, 0x481, 2, -0x1⟩, ⟨0x48b, 0x4bf, 2, -0x1⟩,
  ⟨0x4c2, 0x4ce, 2, -0x1⟩, ⟨0x4cf, 0x4cf, 1, -0xf⟩, ⟨0x4d1, 0x52f, 2, -0x1⟩,
  ⟨0x561, 0x586, 1, -0x30⟩, ⟨0x10d0, 0x10fa, 1, 0xbc0⟩, ⟨0x10fd, 0x10ff, 1, 0xbc0⟩,
  ⟨0x13f8, 0x13fd, 1, -0x8⟩, ⟨0x1c80, 0x1c80, 1, -0x186e⟩, ⟨0x1c81, 0x1c81, 1, -0x186d⟩,
  ⟨0x1c82, 0x1c82, 1, -0x1864⟩, ⟨0x1c83, 0x1c84, 1, -0x1862⟩, ⟨0x1c85, 0x1c85, 1, -0x1863⟩,
  ⟨0x1c86, 0x1c86, 1, -0x185c⟩, ⟨0x1c87, 0x1c87, 1, -0x1825⟩, ⟨0x1c88, 0x1c88, 1, 0x89c2⟩,
  ⟨0x1d79, 0x1d79, 1, 0x8a04⟩, ⟨0x1d7d, 0x1d7d, 1, 0xee6⟩, ⟨0x1d8e, 0x1d8e, 1, 0x8a38⟩,
  ⟨0x1e01, 0x1e95, 2, -0x1⟩, ⟨0x1e9b, 0x1e9b, 1, -0x3b⟩, ⟨0x1ea1, 0x1eff, 2, -0x1⟩,
  ⟨0x1f00, 0x1f07, 1, 0x8⟩, ⟨0x1f10, 0x1f15, 1, 0x8⟩, ⟨0x1f20, 0x1f27, 1, 0x8⟩,
  ⟨0x1f30, 0x1f37, 1, 0x8⟩, ⟨0x1f40, 0x1f45, 1, 0x8⟩, ⟨0x1f51, 0x1f57, 2, 0x8⟩,
  ⟨0x1f60, 0x1f67, 1, 0x8⟩, ⟨0x1f70, 0x1f71, 1, 0x4a⟩, ⟨0x1f72, 0x1f75, 1, 0x56⟩,
  ⟨0x1f76, 0x1f77, 1, 0x64⟩, ⟨0x1f78, 0x1f79, 1, 0x80⟩, ⟨0x1f7a, 0x1f7b, 1, 0x70⟩,
  ⟨0x1f7c, 0x1f7d, 1, 0x7e⟩, ⟨0x1fb0, 0x1fb1, 1, 0x8⟩, ⟨0x1fbe, 0x1fbe, 1, -0x1c25⟩,
  ⟨0x1fd0, 0x1fd1, 1, 0x8⟩, ⟨0x1fe0, 0x1fe1, 1, 0x8⟩, ⟨0x1fe5, 0x1fe5, 1, 0x7⟩,
  ⟨0x214e, 0x214e, 1, -0x1c⟩, ⟨0x2170, 0x217f, 1, -0x10⟩, ⟨0x2184, 0x2184, 1, -0x1⟩,
  ⟨0x24d0, 0x24e9, 1, -0x1a⟩, ⟨0x2c30, 0x2c5f, 1, -0x30⟩, ⟨0x2c61, 0x2c61, 1, -0x1⟩,
  ⟨0x2c65, 0x2c65, 1, -0x2a2b⟩, ⟨0x2c66, 0x2c66, 1, -0x2a28⟩, ⟨0x2c68, 0x2c6c, 2, -0x1⟩,
  ⟨0x2c73, 0x2c73, 1, -0x1⟩, ⟨0x2c76, 0x2c76, 1, -0x1⟩, ⟨0x2c81, 0x2ce3, 2, -0x1⟩,
  ⟨0x2cec, 0x2cee, 2, -0x1⟩, ⟨0x2cf3, 0x2cf3, 1, -0x1⟩, ⟨0x2d00, 0x2d25, 1, -0x1c60⟩,
  ⟨0x2d27, 0x2d27, 1, -0x1c60⟩, ⟨0x2d2d, 0x2d2d, 1, -0x1c60⟩, ⟨0xa641, 0xa66d, 2, -0x1⟩,
  ⟨0xa681, 0xa69b, 2, -0x1⟩, ⟨0xa723, 0xa72f, 2, -0x1⟩, ⟨0xa733, 0xa76f, 2, -0x1⟩,
  ⟨0xa77a, 0xa77c, 2, -0x1⟩, ⟨0xa77f, 0xa787, 2, -0x1⟩, ⟨0xa78c, 0xa78c, 1, -0x1⟩,
  ⟨0xa791, 0xa793, 2, -0x1⟩, ⟨0xa794, 0xa794, 1, 0x30⟩, ⟨0xa797, 0xa7a9, 2, -0x1⟩,
  ⟨0xa7b5, 0xa7c3, 2, -0x1⟩, ⟨0xa7c8, 0xa7ca, 2, -0x1⟩, ⟨0xa7d1, 0xa7d1, 1, -0x1⟩,
  ⟨0xa7d7, 0xa7d9, 2, -0x1⟩, ⟨0xa7f6, 0xa7f6, 1, -0x1⟩, ⟨0xab53, 0xab53, 1, -0x3a0⟩,
  ⟨0xab70, 0xabbf, 1, -0x97d0⟩, ⟨0xff41, 0xff5a, 1, -0x20⟩, ⟨0x10428, 0x1044f, 1, -0x28⟩,
  ⟨0x104d8, 0x104fb, 1, -0x28⟩, ⟨0x10597, 0x105a1, 1, -0x27⟩, ⟨0x105a3, 0x105b1, 1, -0x27⟩,
  ⟨0x105b3, 0x105b9, 1, -0x27⟩, ⟨0x105bb, 0x105bc, 1, -0x27⟩, ⟨0x10cc0, 0x10cf2, 1, -0x40⟩,
  ⟨0x118c0, 0x118df, 1, -0x20⟩, ⟨0x16e60, 0x16e7f, 1, -0x20⟩, ⟨0x1e922, 0x1e943, 1, -0x22⟩]

/-- The letters whose upper-case form has several characters, with the form's code points. -/
def caseExpansions : List (Nat × List Nat) := [
  (0xdf, [0x53, 0x53]), (0x149, [0x2bc, 0x4e]), (0x1f0, [0x4a, 0x30c]),
  (0x390, [0x399, 0x308, 0x301]), (0x3b0, [0x3a5, 0x308, 0x301]), (0x587, [0x535, 0x552]),
  (0x1e96, [0x48, 0x331]), (0x1e97, [0x54, 0x308]), (0x1e98, [0x57, 0x30a]),
  (0x1e99, [0x59, 0x30a]), (0x1e9a, [0x41, 0x2be]), (0x1f50, [0x3a5, 0x313]),
  (0x1f52, [0x3a5, 0x313, 0x300]), (0x1f54, [0x3a5, 0x313, 0x301]),
  (0x1f56, [0x3a5, 0x313, 0x342]), (0x1f80, [0x1f08, 0x399]), (0x1f81, [0x1f09, 0x399]),
  (0x1f82, [0x1f0a, 0x399]), (0x1f83, [0x1f0b, 0x399]), (0x1f84, [0x1f0c, 0x399]),
  (0x1f85, [0x1f0d, 0x399]), (0x1f86, [0x1f0e, 0x399]), (0x1f87, [0x1f0f, 0x399]),
  (0x1f88, [0x1f08, 0x399]), (0x1f89, [0x1f09, 0x399]), (0x1f8a, [0x1f0a, 0x399]),
  (0x1f8b, [0x1f0b, 0x399]), (0x1f8c, [0x1f0c, 0x399]), (0x1f8d, [0x1f0d, 0x399]),
  (0x1f8e, [0x1f0e, 0x399]), (0x1f8f, [0x1f0f, 0x399]), (0x1f90, [0x1f28, 0x399]),
  (0x1f91, [0x1f29, 0x399]), (0x1f92, [0x1f2a, 0x399]), (0x1f93, [0x1f2b, 0x399]),
  (0x1f94, [0x1f2c, 0x399]), (0x1f95, [0x1f2d, 0x399]), (0x1f96, [0x1f2e, 0x399]),
  (0x1f97, [0x1f2f, 0x399]), (0x1f98, [0x1f28, 0x399]), (0x1f99, [0x1f29, 0x399]),
  (0x1f9a, [0x1f2a, 0x399]), (0x1f9b, [0x1f2b, 0x399]), (0x1f9c, [0x1f2c, 0x399]),
  (0x1f9d, [0x1f2d, 0x399]), (0x1f9e, [0x1f2e, 0x399]), (0x1f9f, [0x1f2f, 0x399]),
  (0x1fa0, [0x1f68, 0x399]), (0x1fa1, [0x1f69, 0x399]), (0x1fa2, [0x1f6a, 0x399]),
  (0x1fa3, [0x1f6b, 0x399]), (0x1fa4, [0x1f6c, 0x399]), (0x1fa5, [0x1f6d, 0x399]),
  (0x1fa6, [0x1f6e, 0x399]), (0x1fa7, [0x1f6f, 0x399]), (0x1fa8, [0x1f68, 0x399]),
  (0x1fa9, [0x1f69, 0x399]), (0x1faa, [0x1f6a, 0x399]), (0x1fab, [0x1f6b, 0x399]),
  (0x1fac, [0x1f6c, 0x399]), (0x1fad, [0x1f6d, 0x399]), (0x1fae, [0x1f6e, 0x399]),
  (0x1faf, [0x1f6f, 0x399]), (0x1fb2, [0x1fba, 0x399]), (0x1fb3, [0x391, 0x399]),
  (0x1fb4, [0x386, 0x399]), (0x1fb6, [0x391, 0x342]), (0x1fb7, [0x391, 0x342, 0x399]),
  (0x1fbc, [0x391, 0x399]), (0x1fc2, [0x1fca, 0x399]), (0x1fc3, [0x397, 0x399]),
  (0x1fc4, [0x389, 0x399]), (0x1fc6, [0x397, 0x342]), (0x1fc7, [0x397, 0x342, 0x399]),
  (0x1fcc, [0x397, 0x399]), (0x1fd2, [0x399, 0x308, 0x300]), (0x1fd3, [0x399, 0x308, 0x301]),
  (0x1fd6, [0x399, 0x342]), (0x1fd7, [0x399, 0x308, 0x342]), (0x1fe2, [0x3a5, 0x308, 0x300]),
  (0x1fe3, [0x3a5, 0x308, 0x301]), (0x1fe4, [0x3a1, 0x313]), (0x1fe6, [0x3a5, 0x342]),
  (0x1fe7, [0x3a5, 0x308, 0x342]), (0x1ff2, [0x1ffa, 0x399]), (0x1ff3, [0x3a9, 0x399]),
  (0x1ff4, [0x38f, 0x399]), (0x1ff6, [0x3a9, 0x342]), (0x1ff7, [0x3a9, 0x342, 0x399]),
  (0x1ffc, [0x3a9, 0x399]), (0xfb00, [0x46, 0x46]), (0xfb01, [0x46, 0x49]),
  (0xfb02, [0x46, 0x4c]), (0xfb03, [0x46, 0x46, 0x49]), (0xfb04, [0x46, 0x46, 0x4c]),
  (0xfb05, [0x53, 0x54]), (0xfb06, [0x53, 0x54]), (0xfb13, [0x544, 0x546]),
  (0xfb14, [0x544, 0x535]), (0xfb15, [0x544, 0x53b]), (0xfb16, [0x54e, 0x546]),
  (0xfb17, [0x544, 0x53d])]

/-- Whether a code point is one of a run's letters. -/
def CaseRun.covers (r : CaseRun) (n : Nat) : Bool :=
  r.first ≤ n && n ≤ r.last && (n - r.first) % r.stride == 0

/-- The upper-case form of a character. -/
def upperChar (c : Char) : List Char :=
  if c.toNat < 128 then [c.toUpper]
  else match caseRuns.find? (·.covers c.toNat) with
    | some r => [Char.ofNat ((c.toNat : Int) + r.distance).toNat]
    | none => match caseExpansions.lookup c.toNat with
      | some form => form.map Char.ofNat
      | none => [c]

/-- The text in upper case. -/
def upper (s : String) : String := String.ofList (s.toList.flatMap upperChar)

theorem upper_of_ascii (s : String) (h : ∀ c ∈ s.toList, c.toNat < 128) :
    upper s = String.ofList (s.toList.map Char.toUpper) := by
  unfold upper
  congr 1
  generalize s.toList = cs at h
  induction cs with
  | nil => rfl
  | cons c cs ih =>
    have hc : c.toNat < 128 := h c List.mem_cons_self
    rw [List.flatMap_cons, List.map_cons, ih fun d hd => h d (List.mem_cons_of_mem _ hd)]
    simp [upperChar, hc]

end VectorStyle.Text
