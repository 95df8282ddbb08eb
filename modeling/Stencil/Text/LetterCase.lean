import Stencil.Text.CharClass

/-!
# Letter case

The derived properties Uppercase and Lowercase of the Unicode standard. Both hold more than the
letters that come in pairs: capital Roman numerals and circled capital letters are uppercase,
modifier letters and ordinal indicators are lowercase. A titlecase letter is neither.
-/

namespace Stencil.Text

def uppercaseRuns : List CharRun :=
  [.block 0x41 0x5a, .block 0xc0 0xd6, .block 0xd8 0xde, .alternate 0x100 0x136,
   .alternate 0x139 0x147, .alternate 0x14a 0x176, .block 0x178 0x179, .alternate 0x17b 0x17d,
   .block 0x181 0x182, .block 0x184 0x184, .block 0x186 0x187, .block 0x189 0x18b,
   .block 0x18e 0x191, .block 0x193 0x194, .block 0x196 0x198, .block 0x19c 0x19d,
   .block 0x19f 0x1a0, .alternate 0x1a2 0x1a4, .block 0x1a6 0x1a7, .block 0x1a9 0x1a9,
   .block 0x1ac 0x1ac, .block 0x1ae 0x1af, .block 0x1b1 0x1b3, .block 0x1b5 0x1b5,
   .block 0x1b7 0x1b8, .block 0x1bc 0x1bc, .block 0x1c4 0x1c4, .block 0x1c7 0x1c7,
   .block 0x1ca 0x1ca, .alternate 0x1cd 0x1db, .alternate 0x1de 0x1ee, .block 0x1f1 0x1f1,
   .block 0x1f4 0x1f4, .block 0x1f6 0x1f8, .alternate 0x1fa 0x232, .block 0x23a 0x23b,
   .block 0x23d 0x23e, .block 0x241 0x241, .block 0x243 0x246, .alternate 0x248 0x24e,
   .alternate 0x370 0x372, .block 0x376 0x376, .block 0x37f 0x37f, .block 0x386 0x386,
   .block 0x388 0x38a, .block 0x38c 0x38c, .block 0x38e 0x38f, .block 0x391 0x3a1,
   .block 0x3a3 0x3ab, .block 0x3cf 0x3cf, .block 0x3d2 0x3d4, .alternate 0x3d8 0x3ee,
   .block 0x3f4 0x3f4, .block 0x3f7 0x3f7, .block 0x3f9 0x3fa, .block 0x3fd 0x42f,
   .alternate 0x460 0x480, .alternate 0x48a 0x4be, .block 0x4c0 0x4c1, .alternate 0x4c3 0x4cd,
   .alternate 0x4d0 0x52e, .block 0x531 0x556, .block 0x10a0 0x10c5, .block 0x10c7 0x10c7,
   .block 0x10cd 0x10cd, .block 0x13a0 0x13f5, .block 0x1c89 0x1c89, .block 0x1c90 0x1cba,
   .block 0x1cbd 0x1cbf, .alternate 0x1e00 0x1e94, .alternate 0x1e9e 0x1efe, .block 0x1f08 0x1f0f,
   .block 0x1f18 0x1f1d, .block 0x1f28 0x1f2f, .block 0x1f38 0x1f3f, .block 0x1f48 0x1f4d,
   .alternate 0x1f59 0x1f5f, .block 0x1f68 0x1f6f, .block 0x1fb8 0x1fbb, .block 0x1fc8 0x1fcb,
   .block 0x1fd8 0x1fdb, .block 0x1fe8 0x1fec, .block 0x1ff8 0x1ffb, .block 0x2102 0x2102,
   .block 0x2107 0x2107, .block 0x210b 0x210d, .block 0x2110 0x2112, .block 0x2115 0x2115,
   .block 0x2119 0x211d, .alternate 0x2124 0x2128, .block 0x212a 0x212d, .block 0x2130 0x2133,
   .block 0x213e 0x213f, .block 0x2145 0x2145, .block 0x2160 0x216f, .block 0x2183 0x2183,
   .block 0x24b6 0x24cf, .block 0x2c00 0x2c2f, .block 0x2c60 0x2c60, .block 0x2c62 0x2c64,
   .alternate 0x2c67 0x2c6b, .block 0x2c6d 0x2c70, .block 0x2c72 0x2c72, .block 0x2c75 0x2c75,
   .block 0x2c7e 0x2c80, .alternate 0x2c82 0x2ce2, .alternate 0x2ceb 0x2ced, .block 0x2cf2 0x2cf2,
   .alternate 0xa640 0xa66c, .alternate 0xa680 0xa69a, .alternate 0xa722 0xa72e,
   .alternate 0xa732 0xa76e, .alternate 0xa779 0xa77b, .block 0xa77d 0xa77e,
   .alternate 0xa780 0xa786, .alternate 0xa78b 0xa78d, .alternate 0xa790 0xa792,
   .alternate 0xa796 0xa7a8, .block 0xa7aa 0xa7ae, .block 0xa7b0 0xa7b4, .alternate 0xa7b6 0xa7c2,
   .block 0xa7c4 0xa7c7, .block 0xa7c9 0xa7c9, .block 0xa7cb 0xa7cc, .alternate 0xa7ce 0xa7dc,
   .block 0xa7f5 0xa7f5, .block 0xff21 0xff3a, .block 0x10400 0x10427, .block 0x104b0 0x104d3,
   .block 0x10570 0x1057a, .block 0x1057c 0x1058a, .block 0x1058c 0x10592, .block 0x10594 0x10595,
   .block 0x10c80 0x10cb2, .block 0x10d50 0x10d65, .block 0x118a0 0x118bf, .block 0x16e40 0x16e5f,
   .block 0x16ea0 0x16eb8, .block 0x1d400 0x1d419, .block 0x1d434 0x1d44d, .block 0x1d468 0x1d481,
   .block 0x1d49c 0x1d49c, .block 0x1d49e 0x1d49f, .block 0x1d4a2 0x1d4a2, .block 0x1d4a5 0x1d4a6,
   .block 0x1d4a9 0x1d4ac, .block 0x1d4ae 0x1d4b5, .block 0x1d4d0 0x1d4e9, .block 0x1d504 0x1d505,
   .block 0x1d507 0x1d50a, .block 0x1d50d 0x1d514, .block 0x1d516 0x1d51c, .block 0x1d538 0x1d539,
   .block 0x1d53b 0x1d53e, .block 0x1d540 0x1d544, .block 0x1d546 0x1d546, .block 0x1d54a 0x1d550,
   .block 0x1d56c 0x1d585, .block 0x1d5a0 0x1d5b9, .block 0x1d5d4 0x1d5ed, .block 0x1d608 0x1d621,
   .block 0x1d63c 0x1d655, .block 0x1d670 0x1d689, .block 0x1d6a8 0x1d6c0, .block 0x1d6e2 0x1d6fa,
   .block 0x1d71c 0x1d734, .block 0x1d756 0x1d76e, .block 0x1d790 0x1d7a8, .block 0x1d7ca 0x1d7ca,
   .block 0x1e900 0x1e921, .block 0x1f130 0x1f149, .block 0x1f150 0x1f169, .block 0x1f170 0x1f189]

def lowercaseRuns : List CharRun :=
  [.block 0x61 0x7a, .block 0xaa 0xaa, .block 0xb5 0xb5, .block 0xba 0xba, .block 0xdf 0xf6,
   .block 0xf8 0xff, .alternate 0x101 0x135, .block 0x137 0x138, .alternate 0x13a 0x146,
   .block 0x148 0x149, .alternate 0x14b 0x177, .alternate 0x17a 0x17c, .block 0x17e 0x180,
   .alternate 0x183 0x185, .block 0x188 0x188, .block 0x18c 0x18d, .block 0x192 0x192,
   .block 0x195 0x195, .block 0x199 0x19b, .block 0x19e 0x19e, .alternate 0x1a1 0x1a5,
   .block 0x1a8 0x1a8, .block 0x1aa 0x1ab, .block 0x1ad 0x1ad, .block 0x1b0 0x1b0,
   .alternate 0x1b4 0x1b6, .block 0x1b9 0x1ba, .block 0x1bd 0x1bf, .block 0x1c6 0x1c6,
   .block 0x1c9 0x1c9, .alternate 0x1cc 0x1da, .block 0x1dc 0x1dd, .alternate 0x1df 0x1ed,
   .block 0x1ef 0x1f0, .alternate 0x1f3 0x1f5, .alternate 0x1f9 0x231, .block 0x233 0x239,
   .block 0x23c 0x23c, .block 0x23f 0x240, .block 0x242 0x242, .alternate 0x247 0x24d,
   .block 0x24f 0x293, .block 0x296 0x2b8, .block 0x2c0 0x2c1, .block 0x2e0 0x2e4,
   .block 0x345 0x345, .alternate 0x371 0x373, .block 0x377 0x377, .block 0x37a 0x37d,
   .block 0x390 0x390, .block 0x3ac 0x3ce, .block 0x3d0 0x3d1, .block 0x3d5 0x3d7,
   .alternate 0x3d9 0x3ed, .block 0x3ef 0x3f3, .block 0x3f5 0x3f5, .block 0x3f8 0x3f8,
   .block 0x3fb 0x3fc, .block 0x430 0x45f, .alternate 0x461 0x481, .alternate 0x48b 0x4bf,
   .alternate 0x4c2 0x4cc, .block 0x4ce 0x4cf, .alternate 0x4d1 0x52f, .block 0x560 0x588,
   .block 0x10d0 0x10fa, .block 0x10fc 0x10ff, .block 0x13f8 0x13fd, .block 0x1c80 0x1c88,
   .block 0x1c8a 0x1c8a, .block 0x1d00 0x1dbf, .alternate 0x1e01 0x1e93, .block 0x1e95 0x1e9d,
   .alternate 0x1e9f 0x1efd, .block 0x1eff 0x1f07, .block 0x1f10 0x1f15, .block 0x1f20 0x1f27,
   .block 0x1f30 0x1f37, .block 0x1f40 0x1f45, .block 0x1f50 0x1f57, .block 0x1f60 0x1f67,
   .block 0x1f70 0x1f7d, .block 0x1f80 0x1f87, .block 0x1f90 0x1f97, .block 0x1fa0 0x1fa7,
   .block 0x1fb0 0x1fb4, .block 0x1fb6 0x1fb7, .block 0x1fbe 0x1fbe, .block 0x1fc2 0x1fc4,
   .block 0x1fc6 0x1fc7, .block 0x1fd0 0x1fd3, .block 0x1fd6 0x1fd7, .block 0x1fe0 0x1fe7,
   .block 0x1ff2 0x1ff4, .block 0x1ff6 0x1ff7, .block 0x2071 0x2071, .block 0x207f 0x207f,
   .block 0x2090 0x209c, .block 0x210a 0x210a, .block 0x210e 0x210f, .block 0x2113 0x2113,
   .block 0x212f 0x212f, .block 0x2134 0x2134, .block 0x2139 0x2139, .block 0x213c 0x213d,
   .block 0x2146 0x2149, .block 0x214e 0x214e, .block 0x2170 0x217f, .block 0x2184 0x2184,
   .block 0x24d0 0x24e9, .block 0x2c30 0x2c5f, .block 0x2c61 0x2c61, .block 0x2c65 0x2c66,
   .alternate 0x2c68 0x2c6c, .block 0x2c71 0x2c71, .block 0x2c73 0x2c74, .block 0x2c76 0x2c7d,
   .alternate 0x2c81 0x2ce1, .block 0x2ce3 0x2ce4, .alternate 0x2cec 0x2cee, .block 0x2cf3 0x2cf3,
   .block 0x2d00 0x2d25, .block 0x2d27 0x2d27, .block 0x2d2d 0x2d2d, .alternate 0xa641 0xa66d,
   .alternate 0xa681 0xa699, .block 0xa69b 0xa69d, .alternate 0xa723 0xa72d, .block 0xa72f 0xa731,
   .alternate 0xa733 0xa76d, .block 0xa76f 0xa778, .alternate 0xa77a 0xa77c,
   .alternate 0xa77f 0xa787, .alternate 0xa78c 0xa78e, .block 0xa791 0xa791, .block 0xa793 0xa795,
   .alternate 0xa797 0xa7a9, .block 0xa7af 0xa7af, .alternate 0xa7b5 0xa7c3,
   .alternate 0xa7c8 0xa7ca, .alternate 0xa7cd 0xa7db, .block 0xa7f1 0xa7f4, .block 0xa7f6 0xa7f6,
   .block 0xa7f8 0xa7fa, .block 0xab30 0xab5a, .block 0xab5c 0xab69, .block 0xab70 0xabbf,
   .block 0xfb00 0xfb06, .block 0xfb13 0xfb17, .block 0xff41 0xff5a, .block 0x10428 0x1044f,
   .block 0x104d8 0x104fb, .block 0x10597 0x105a1, .block 0x105a3 0x105b1, .block 0x105b3 0x105b9,
   .block 0x105bb 0x105bc, .block 0x10780 0x10780, .block 0x10783 0x10785, .block 0x10787 0x107b0,
   .block 0x107b2 0x107ba, .block 0x10cc0 0x10cf2, .block 0x10d70 0x10d85, .block 0x118c0 0x118df,
   .block 0x16e60 0x16e7f, .block 0x16ebb 0x16ed3, .block 0x1d41a 0x1d433, .block 0x1d44e 0x1d454,
   .block 0x1d456 0x1d467, .block 0x1d482 0x1d49b, .block 0x1d4b6 0x1d4b9, .block 0x1d4bb 0x1d4bb,
   .block 0x1d4bd 0x1d4c3, .block 0x1d4c5 0x1d4cf, .block 0x1d4ea 0x1d503, .block 0x1d51e 0x1d537,
   .block 0x1d552 0x1d56b, .block 0x1d586 0x1d59f, .block 0x1d5ba 0x1d5d3, .block 0x1d5ee 0x1d607,
   .block 0x1d622 0x1d63b, .block 0x1d656 0x1d66f, .block 0x1d68a 0x1d6a5, .block 0x1d6c2 0x1d6da,
   .block 0x1d6dc 0x1d6e1, .block 0x1d6fc 0x1d714, .block 0x1d716 0x1d71b, .block 0x1d736 0x1d74e,
   .block 0x1d750 0x1d755, .block 0x1d770 0x1d788, .block 0x1d78a 0x1d78f, .block 0x1d7aa 0x1d7c2,
   .block 0x1d7c4 0x1d7c9, .block 0x1d7cb 0x1d7cb, .block 0x1df00 0x1df09, .block 0x1df0b 0x1df1e,
   .block 0x1df25 0x1df2a, .block 0x1e030 0x1e06d, .block 0x1e922 0x1e943]

def isUppercase (character : Char) : Bool :=
  inRuns uppercaseRuns character.toNat

def isLowercase (character : Char) : Bool :=
  inRuns lowercaseRuns character.toNat

end Stencil.Text
