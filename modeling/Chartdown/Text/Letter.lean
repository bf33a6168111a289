/-! # Letters without their marks

The Latin letter that remains of an accented letter when its marks are taken off: the canonical
decomposition of Unicode without the non-spacing marks, in lower case.

* `baseLetter?_isLower`  the letter found is a small letter of ASCII
-/

namespace Chartdown.Text

/-- For each small letter of ASCII, the code points beyond ASCII that are that letter, of either
case, with marks. -/
def markedLetters : List (Char × List Nat) :=
  [('a', [0xc0, 0xc1, 0xc2, 0xc3, 0xc4, 0xc5, 0xe0, 0xe1, 0xe2, 0xe3, 0xe4, 0xe5, 0x100, 0x101,
     0x102, 0x103, 0x104, 0x105, 0x1cd, 0x1ce, 0x1de, 0x1df, 0x1e0, 0x1e1, 0x1fa, 0x1fb, 0x200,
     0x201, 0x202, 0x203, 0x226, 0x227, 0x1e00, 0x1e01, 0x1ea0, 0x1ea1, 0x1ea2, 0x1ea3, 0x1ea4,
     0x1ea5, 0x1ea6, 0x1ea7, 0x1ea8, 0x1ea9, 0x1eaa, 0x1eab, 0x1eac, 0x1ead, 0x1eae, 0x1eaf,
     0x1eb0, 0x1eb1, 0x1eb2, 0x1eb3, 0x1eb4, 0x1eb5, 0x1eb6, 0x1eb7, 0x212b]),
   ('b', [0x1e02, 0x1e03, 0x1e04, 0x1e05, 0x1e06, 0x1e07]),
   ('c', [0xc7, 0xe7, 0x106, 0x107, 0x108, 0x109, 0x10a, 0x10b, 0x10c, 0x10d, 0x1e08, 0x1e09]),
   ('d', [0x10e, 0x10f, 0x1e0a, 0x1e0b, 0x1e0c, 0x1e0d, 0x1e0e, 0x1e0f, 0x1e10, 0x1e11, 0x1e12,
     0x1e13]),
   ('e', [0xc8, 0xc9, 0xca, 0xcb, 0xe8, 0xe9, 0xea, 0xeb, 0x112, 0x113, 0x114, 0x115, 0x116,
     0x117, 0x118, 0x119, 0x11a, 0x11b, 0x204, 0x205, 0x206, 0x207, 0x228, 0x229, 0x1e14, 0x1e15,
     0x1e16, 0x1e17, 0x1e18, 0x1e19, 0x1e1a, 0x1e1b, 0x1e1c, 0x1e1d, 0x1eb8, 0x1eb9, 0x1eba,
     0x1ebb, 0x1ebc, 0x1ebd, 0x1ebe, 0x1ebf, 0x1ec0, 0x1ec1, 0x1ec2, 0x1ec3, 0x1ec4, 0x1ec5,
     0x1ec6, 0x1ec7]),
   ('f', [0x1e1e, 0x1e1f]),
   ('g', [0x11c, 0x11d, 0x11e, 0x11f, 0x120, 0x121, 0x122, 0x123, 0x1e6, 0x1e7, 0x1f4, 0x1f5,
     0x1e20, 0x1e21]),
   ('h', [0x124, 0x125, 0x21e, 0x21f, 0x1e22, 0x1e23, 0x1e24, 0x1e25, 0x1e26, 0x1e27, 0x1e28,
     0x1e29, 0x1e2a, 0x1e2b, 0x1e96]),
   ('i', [0xcc, 0xcd, 0xce, 0xcf, 0xec, 0xed, 0xee, 0xef, 0x128, 0x129, 0x12a, 0x12b, 0x12c,
     0x12d, 0x12e, 0x12f, 0x130, 0x1cf, 0x1d0, 0x208, 0x209, 0x20a, 0x20b, 0x1e2c, 0x1e2d, 0x1e2e,
     0x1e2f, 0x1ec8, 0x1ec9, 0x1eca, 0x1ecb]),
   ('j', [0x134, 0x135, 0x1f0]),
   ('k', [0x136, 0x137, 0x1e8, 0x1e9, 0x1e30, 0x1e31, 0x1e32, 0x1e33, 0x1e34, 0x1e35, 0x212a]),
   ('l', [0x139, 0x13a, 0x13b, 0x13c, 0x13d, 0x13e, 0x1e36, 0x1e37, 0x1e38, 0x1e39, 0x1e3a,
     0x1e3b, 0x1e3c, 0x1e3d]),
   ('m', [0x1e3e, 0x1e3f, 0x1e40, 0x1e41, 0x1e42, 0x1e43]),
   ('n', [0xd1, 0xf1, 0x143, 0x144, 0x145, 0x146, 0x147, 0x148, 0x1f8, 0x1f9, 0x1e44, 0x1e45,
     0x1e46, 0x1e47, 0x1e48, 0x1e49, 0x1e4a, 0x1e4b]),
   ('o', [0xd2, 0xd3, 0xd4, 0xd5, 0xd6, 0xf2, 0xf3, 0xf4, 0xf5, 0xf6, 0x14c, 0x14d, 0x14e, 0x14f,
     0x150, 0x151, 0x1a0, 0x1a1, 0x1d1, 0x1d2, 0x1ea, 0x1eb, 0x1ec, 0x1ed, 0x20c, 0x20d, 0x20e,
     0x20f, 0x22a, 0x22b, 0x22c, 0x22d, 0x22e, 0x22f, 0x230, 0x231, 0x1e4c, 0x1e4d, 0x1e4e,
     0x1e4f, 0x1e50, 0x1e51, 0x1e52, 0x1e53, 0x1ecc, 0x1ecd, 0x1ece, 0x1ecf, 0x1ed0, 0x1ed1,
     0x1ed2, 0x1ed3, 0x1ed4, 0x1ed5, 0x1ed6, 0x1ed7, 0x1ed8, 0x1ed9, 0x1eda, 0x1edb, 0x1edc,
     0x1edd, 0x1ede, 0x1edf, 0x1ee0, 0x1ee1, 0x1ee2, 0x1ee3]),
   ('p', [0x1e54, 0x1e55, 0x1e56, 0x1e57]),
   ('r', [0x154, 0x155, 0x156, 0x157, 0x158, 0x159, 0x210, 0x211, 0x212, 0x213, 0x1e58, 0x1e59,
     0x1e5a, 0x1e5b, 0x1e5c, 0x1e5d, 0x1e5e, 0x1e5f]),
   ('s', [0x15a, 0x15b, 0x15c, 0x15d, 0x15e, 0x15f, 0x160, 0x161, 0x218, 0x219, 0x1e60, 0x1e61,
     0x1e62, 0x1e63, 0x1e64, 0x1e65, 0x1e66, 0x1e67, 0x1e68, 0x1e69]),
   ('t', [0x162, 0x163, 0x164, 0x165, 0x21a, 0x21b, 0x1e6a, 0x1e6b, 0x1e6c, 0x1e6d, 0x1e6e,
     0x1e6f, 0x1e70, 0x1e71, 0x1e97]),
   ('u', [0xd9, 0xda, 0xdb, 0xdc, 0xf9, 0xfa, 0xfb, 0xfc, 0x168, 0x169, 0x16a, 0x16b, 0x16c,
     0x16d, 0x16e, 0x16f, 0x170, 0x171, 0x172, 0x173, 0x1af, 0x1b0, 0x1d3, 0x1d4, 0x1d5, 0x1d6,
     0x1d7, 0x1d8, 0x1d9, 0x1da, 0x1db, 0x1dc, 0x214, 0x215, 0x216, 0x217, 0x1e72, 0x1e73, 0x1e74,
     0x1e75, 0x1e76, 0x1e77, 0x1e78, 0x1e79, 0x1e7a, 0x1e7b, 0x1ee4, 0x1ee5, 0x1ee6, 0x1ee7,
     0x1ee8, 0x1ee9, 0x1eea, 0x1eeb, 0x1eec, 0x1eed, 0x1eee, 0x1eef, 0x1ef0, 0x1ef1]),
   ('v', [0x1e7c, 0x1e7d, 0x1e7e, 0x1e7f]),
   ('w', [0x174, 0x175, 0x1e80, 0x1e81, 0x1e82, 0x1e83, 0x1e84, 0x1e85, 0x1e86, 0x1e87, 0x1e88,
     0x1e89, 0x1e98]),
   ('x', [0x1e8a, 0x1e8b, 0x1e8c, 0x1e8d]),
   ('y', [0xdd, 0xfd, 0xff, 0x176, 0x177, 0x178, 0x232, 0x233, 0x1e8e, 0x1e8f, 0x1e99, 0x1ef2,
     0x1ef3, 0x1ef4, 0x1ef5, 0x1ef6, 0x1ef7, 0x1ef8, 0x1ef9]),
   ('z', [0x179, 0x17a, 0x17b, 0x17c, 0x17d, 0x17e, 0x1e90, 0x1e91, 0x1e92, 0x1e93, 0x1e94,
     0x1e95])]

/-- The small letter that a marked letter beyond ASCII is built on. -/
def baseLetter? (c : Char) : Option Char :=
  (markedLetters.find? fun entry => entry.2.contains c.toNat).map Prod.fst

theorem baseLetter?_isLower {c b : Char} (h : baseLetter? c = some b) : b.isLower = true := by
  obtain ⟨entry, hfind, rfl⟩ := Option.map_eq_some_iff.mp h
  have hall : ∀ e ∈ markedLetters, e.1.isLower = true := by decide +kernel
  exact hall entry (List.mem_of_find?_eq_some hfind)

end Chartdown.Text
