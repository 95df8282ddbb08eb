import Stencil.Text.CharClass

/-!
# Printable characters

A character is shown as it is when it has a glyph of its own. Control, format, surrogate, private
use and unassigned code points and all separators but the space have none, nor have the code points
that may be ignored by default, such as fillers. A grapheme extender that is no letter would melt
into the character before it.
-/

namespace Stencil.Text

/-- The code points of the general categories Cc, Cf, Cs, Co, Cn, Zl, Zp and Zs, the space apart. -/
def unprintableRuns : List CharRun :=
  [.block 0x0 0x1f, .block 0x7f 0xa0, .block 0xad 0xad, .block 0x378 0x379, .block 0x380 0x383,
   .alternate 0x38b 0x38d, .block 0x3a2 0x3a2, .block 0x530 0x530, .block 0x557 0x558,
   .block 0x58b 0x58c, .block 0x590 0x590, .block 0x5c8 0x5cf, .block 0x5eb 0x5ee,
   .block 0x5f5 0x605, .block 0x61c 0x61c, .block 0x6dd 0x6dd, .block 0x70e 0x70f,
   .block 0x74b 0x74c, .block 0x7b2 0x7bf, .block 0x7fb 0x7fc, .block 0x82e 0x82f,
   .block 0x83f 0x83f, .block 0x85c 0x85d, .block 0x85f 0x85f, .block 0x86b 0x86f,
   .block 0x890 0x896, .block 0x8e2 0x8e2, .block 0x984 0x984, .block 0x98d 0x98e,
   .block 0x991 0x992, .block 0x9a9 0x9a9, .block 0x9b1 0x9b1, .block 0x9b3 0x9b5,
   .block 0x9ba 0x9bb, .block 0x9c5 0x9c6, .block 0x9c9 0x9ca, .block 0x9cf 0x9d6,
   .block 0x9d8 0x9db, .block 0x9de 0x9de, .block 0x9e4 0x9e5, .block 0x9ff 0xa00,
   .block 0xa04 0xa04, .block 0xa0b 0xa0e, .block 0xa11 0xa12, .block 0xa29 0xa29,
   .block 0xa31 0xa31, .block 0xa34 0xa34, .block 0xa37 0xa37, .block 0xa3a 0xa3b,
   .block 0xa3d 0xa3d, .block 0xa43 0xa46, .block 0xa49 0xa4a, .block 0xa4e 0xa50,
   .block 0xa52 0xa58, .block 0xa5d 0xa5d, .block 0xa5f 0xa65, .block 0xa77 0xa80,
   .block 0xa84 0xa84, .block 0xa8e 0xa8e, .block 0xa92 0xa92, .block 0xaa9 0xaa9,
   .block 0xab1 0xab1, .block 0xab4 0xab4, .block 0xaba 0xabb, .block 0xac6 0xac6,
   .block 0xaca 0xaca, .block 0xace 0xacf, .block 0xad1 0xadf, .block 0xae4 0xae5,
   .block 0xaf2 0xaf8, .block 0xb00 0xb00, .block 0xb04 0xb04, .block 0xb0d 0xb0e,
   .block 0xb11 0xb12, .block 0xb29 0xb29, .block 0xb31 0xb31, .block 0xb34 0xb34,
   .block 0xb3a 0xb3b, .block 0xb45 0xb46, .block 0xb49 0xb4a, .block 0xb4e 0xb54,
   .block 0xb58 0xb5b, .block 0xb5e 0xb5e, .block 0xb64 0xb65, .block 0xb78 0xb81,
   .block 0xb84 0xb84, .block 0xb8b 0xb8d, .block 0xb91 0xb91, .block 0xb96 0xb98,
   .alternate 0xb9b 0xb9d, .block 0xba0 0xba2, .block 0xba5 0xba7, .block 0xbab 0xbad,
   .block 0xbba 0xbbd, .block 0xbc3 0xbc5, .block 0xbc9 0xbc9, .block 0xbce 0xbcf,
   .block 0xbd1 0xbd6, .block 0xbd8 0xbe5, .block 0xbfb 0xbff, .block 0xc0d 0xc0d,
   .block 0xc11 0xc11, .block 0xc29 0xc29, .block 0xc3a 0xc3b, .block 0xc45 0xc45,
   .block 0xc49 0xc49, .block 0xc4e 0xc54, .block 0xc57 0xc57, .block 0xc5b 0xc5b,
   .block 0xc5e 0xc5f, .block 0xc64 0xc65, .block 0xc70 0xc76, .block 0xc8d 0xc8d,
   .block 0xc91 0xc91, .block 0xca9 0xca9, .block 0xcb4 0xcb4, .block 0xcba 0xcbb,
   .block 0xcc5 0xcc5, .block 0xcc9 0xcc9, .block 0xcce 0xcd4, .block 0xcd7 0xcdb,
   .block 0xcdf 0xcdf, .block 0xce4 0xce5, .block 0xcf0 0xcf0, .block 0xcf4 0xcff,
   .block 0xd0d 0xd0d, .block 0xd11 0xd11, .block 0xd45 0xd45, .block 0xd49 0xd49,
   .block 0xd50 0xd53, .block 0xd64 0xd65, .block 0xd80 0xd80, .block 0xd84 0xd84,
   .block 0xd97 0xd99, .block 0xdb2 0xdb2, .block 0xdbc 0xdbc, .block 0xdbe 0xdbf,
   .block 0xdc7 0xdc9, .block 0xdcb 0xdce, .alternate 0xdd5 0xdd7, .block 0xde0 0xde5,
   .block 0xdf0 0xdf1, .block 0xdf5 0xe00, .block 0xe3b 0xe3e, .block 0xe5c 0xe80,
   .alternate 0xe83 0xe85, .block 0xe8b 0xe8b, .alternate 0xea4 0xea6, .block 0xebe 0xebf,
   .alternate 0xec5 0xec7, .block 0xecf 0xecf, .block 0xeda 0xedb, .block 0xee0 0xeff,
   .block 0xf48 0xf48, .block 0xf6d 0xf70, .block 0xf98 0xf98, .block 0xfbd 0xfbd,
   .block 0xfcd 0xfcd, .block 0xfdb 0xfff, .block 0x10c6 0x10c6, .block 0x10c8 0x10cc,
   .block 0x10ce 0x10cf, .block 0x1249 0x1249, .block 0x124e 0x124f, .alternate 0x1257 0x1259,
   .block 0x125e 0x125f, .block 0x1289 0x1289, .block 0x128e 0x128f, .block 0x12b1 0x12b1,
   .block 0x12b6 0x12b7, .alternate 0x12bf 0x12c1, .block 0x12c6 0x12c7, .block 0x12d7 0x12d7,
   .block 0x1311 0x1311, .block 0x1316 0x1317, .block 0x135b 0x135c, .block 0x137d 0x137f,
   .block 0x139a 0x139f, .block 0x13f6 0x13f7, .block 0x13fe 0x13ff, .block 0x1680 0x1680,
   .block 0x169d 0x169f, .block 0x16f9 0x16ff, .block 0x1716 0x171e, .block 0x1737 0x173f,
   .block 0x1754 0x175f, .block 0x176d 0x176d, .block 0x1771 0x1771, .block 0x1774 0x177f,
   .block 0x17de 0x17df, .block 0x17ea 0x17ef, .block 0x17fa 0x17ff, .block 0x180e 0x180e,
   .block 0x181a 0x181f, .block 0x1879 0x187f, .block 0x18ab 0x18af, .block 0x18f6 0x18ff,
   .block 0x191f 0x191f, .block 0x192c 0x192f, .block 0x193c 0x193f, .block 0x1941 0x1943,
   .block 0x196e 0x196f, .block 0x1975 0x197f, .block 0x19ac 0x19af, .block 0x19ca 0x19cf,
   .block 0x19db 0x19dd, .block 0x1a1c 0x1a1d, .block 0x1a5f 0x1a5f, .block 0x1a7d 0x1a7e,
   .block 0x1a8a 0x1a8f, .block 0x1a9a 0x1a9f, .block 0x1aae 0x1aaf, .block 0x1ade 0x1adf,
   .block 0x1aec 0x1aff, .block 0x1b4d 0x1b4d, .block 0x1bf4 0x1bfb, .block 0x1c38 0x1c3a,
   .block 0x1c4a 0x1c4c, .block 0x1c8b 0x1c8f, .block 0x1cbb 0x1cbc, .block 0x1cc8 0x1ccf,
   .block 0x1cfb 0x1cff, .block 0x1f16 0x1f17, .block 0x1f1e 0x1f1f, .block 0x1f46 0x1f47,
   .block 0x1f4e 0x1f4f, .alternate 0x1f58 0x1f5e, .block 0x1f7e 0x1f7f, .block 0x1fb5 0x1fb5,
   .block 0x1fc5 0x1fc5, .block 0x1fd4 0x1fd5, .block 0x1fdc 0x1fdc, .block 0x1ff0 0x1ff1,
   .block 0x1ff5 0x1ff5, .block 0x1fff 0x200f, .block 0x2028 0x202f, .block 0x205f 0x206f,
   .block 0x2072 0x2073, .block 0x208f 0x208f, .block 0x209d 0x209f, .block 0x20c2 0x20cf,
   .block 0x20f1 0x20ff, .block 0x218c 0x218f, .block 0x242a 0x243f, .block 0x244b 0x245f,
   .block 0x2b74 0x2b75, .block 0x2cf4 0x2cf8, .block 0x2d26 0x2d26, .block 0x2d28 0x2d2c,
   .block 0x2d2e 0x2d2f, .block 0x2d68 0x2d6e, .block 0x2d71 0x2d7e, .block 0x2d97 0x2d9f,
   .block 0x2da7 0x2da7, .block 0x2daf 0x2daf, .block 0x2db7 0x2db7, .block 0x2dbf 0x2dbf,
   .block 0x2dc7 0x2dc7, .block 0x2dcf 0x2dcf, .block 0x2dd7 0x2dd7, .block 0x2ddf 0x2ddf,
   .block 0x2e5e 0x2e7f, .block 0x2e9a 0x2e9a, .block 0x2ef4 0x2eff, .block 0x2fd6 0x2fef,
   .block 0x3000 0x3000, .block 0x3040 0x3040, .block 0x3097 0x3098, .block 0x3100 0x3104,
   .block 0x3130 0x3130, .block 0x318f 0x318f, .block 0x31e6 0x31ee, .block 0x321f 0x321f,
   .block 0xa48d 0xa48f, .block 0xa4c7 0xa4cf, .block 0xa62c 0xa63f, .block 0xa6f8 0xa6ff,
   .block 0xa7dd 0xa7f0, .block 0xa82d 0xa82f, .block 0xa83a 0xa83f, .block 0xa878 0xa87f,
   .block 0xa8c6 0xa8cd, .block 0xa8da 0xa8df, .block 0xa954 0xa95e, .block 0xa97d 0xa97f,
   .block 0xa9ce 0xa9ce, .block 0xa9da 0xa9dd, .block 0xa9ff 0xa9ff, .block 0xaa37 0xaa3f,
   .block 0xaa4e 0xaa4f, .block 0xaa5a 0xaa5b, .block 0xaac3 0xaada, .block 0xaaf7 0xab00,
   .block 0xab07 0xab08, .block 0xab0f 0xab10, .block 0xab17 0xab1f, .block 0xab27 0xab27,
   .block 0xab2f 0xab2f, .block 0xab6c 0xab6f, .block 0xabee 0xabef, .block 0xabfa 0xabff,
   .block 0xd7a4 0xd7af, .block 0xd7c7 0xd7ca, .block 0xd7fc 0xf8ff, .block 0xfa6e 0xfa6f,
   .block 0xfada 0xfaff, .block 0xfb07 0xfb12, .block 0xfb18 0xfb1c, .block 0xfb37 0xfb37,
   .alternate 0xfb3d 0xfb3f, .block 0xfb42 0xfb42, .block 0xfb45 0xfb45, .block 0xfdd0 0xfdef,
   .block 0xfe1a 0xfe1f, .block 0xfe53 0xfe53, .block 0xfe67 0xfe67, .block 0xfe6c 0xfe6f,
   .block 0xfe75 0xfe75, .block 0xfefd 0xff00, .block 0xffbf 0xffc1, .block 0xffc8 0xffc9,
   .block 0xffd0 0xffd1, .block 0xffd8 0xffd9, .block 0xffdd 0xffdf, .block 0xffe7 0xffe7,
   .block 0xffef 0xfffb, .block 0xfffe 0xffff, .block 0x1000c 0x1000c, .block 0x10027 0x10027,
   .block 0x1003b 0x1003b, .block 0x1003e 0x1003e, .block 0x1004e 0x1004f, .block 0x1005e 0x1007f,
   .block 0x100fb 0x100ff, .block 0x10103 0x10106, .block 0x10134 0x10136, .block 0x1018f 0x1018f,
   .block 0x1019d 0x1019f, .block 0x101a1 0x101cf, .block 0x101fe 0x1027f, .block 0x1029d 0x1029f,
   .block 0x102d1 0x102df, .block 0x102fc 0x102ff, .block 0x10324 0x1032c, .block 0x1034b 0x1034f,
   .block 0x1037b 0x1037f, .block 0x1039e 0x1039e, .block 0x103c4 0x103c7, .block 0x103d6 0x103ff,
   .block 0x1049e 0x1049f, .block 0x104aa 0x104af, .block 0x104d4 0x104d7, .block 0x104fc 0x104ff,
   .block 0x10528 0x1052f, .block 0x10564 0x1056e, .block 0x1057b 0x1057b, .block 0x1058b 0x1058b,
   .block 0x10593 0x10593, .block 0x10596 0x10596, .block 0x105a2 0x105a2, .block 0x105b2 0x105b2,
   .block 0x105ba 0x105ba, .block 0x105bd 0x105bf, .block 0x105f4 0x105ff, .block 0x10737 0x1073f,
   .block 0x10756 0x1075f, .block 0x10768 0x1077f, .block 0x10786 0x10786, .block 0x107b1 0x107b1,
   .block 0x107bb 0x107ff, .block 0x10806 0x10807, .block 0x10809 0x10809, .block 0x10836 0x10836,
   .block 0x10839 0x1083b, .block 0x1083d 0x1083e, .block 0x10856 0x10856, .block 0x1089f 0x108a6,
   .block 0x108b0 0x108df, .block 0x108f3 0x108f3, .block 0x108f6 0x108fa, .block 0x1091c 0x1091e,
   .block 0x1093a 0x1093e, .block 0x1095a 0x1097f, .block 0x109b8 0x109bb, .block 0x109d0 0x109d1,
   .block 0x10a04 0x10a04, .block 0x10a07 0x10a0b, .block 0x10a14 0x10a14, .block 0x10a18 0x10a18,
   .block 0x10a36 0x10a37, .block 0x10a3b 0x10a3e, .block 0x10a49 0x10a4f, .block 0x10a59 0x10a5f,
   .block 0x10aa0 0x10abf, .block 0x10ae7 0x10aea, .block 0x10af7 0x10aff, .block 0x10b36 0x10b38,
   .block 0x10b56 0x10b57, .block 0x10b73 0x10b77, .block 0x10b92 0x10b98, .block 0x10b9d 0x10ba8,
   .block 0x10bb0 0x10bff, .block 0x10c49 0x10c7f, .block 0x10cb3 0x10cbf, .block 0x10cf3 0x10cf9,
   .block 0x10d28 0x10d2f, .block 0x10d3a 0x10d3f, .block 0x10d66 0x10d68, .block 0x10d86 0x10d8d,
   .block 0x10d90 0x10e5f, .block 0x10e7f 0x10e7f, .block 0x10eaa 0x10eaa, .block 0x10eae 0x10eaf,
   .block 0x10eb2 0x10ec1, .block 0x10ec8 0x10ecf, .block 0x10ed9 0x10ef9, .block 0x10f28 0x10f2f,
   .block 0x10f5a 0x10f6f, .block 0x10f8a 0x10faf, .block 0x10fcc 0x10fdf, .block 0x10ff7 0x10fff,
   .block 0x1104e 0x11051, .block 0x11076 0x1107e, .block 0x110bd 0x110bd, .block 0x110c3 0x110cf,
   .block 0x110e9 0x110ef, .block 0x110fa 0x110ff, .block 0x11135 0x11135, .block 0x11148 0x1114f,
   .block 0x11177 0x1117f, .block 0x111e0 0x111e0, .block 0x111f5 0x111ff, .block 0x11212 0x11212,
   .block 0x11242 0x1127f, .alternate 0x11287 0x11289, .block 0x1128e 0x1128e,
   .block 0x1129e 0x1129e, .block 0x112aa 0x112af, .block 0x112eb 0x112ef, .block 0x112fa 0x112ff,
   .block 0x11304 0x11304, .block 0x1130d 0x1130e, .block 0x11311 0x11312, .block 0x11329 0x11329,
   .block 0x11331 0x11331, .block 0x11334 0x11334, .block 0x1133a 0x1133a, .block 0x11345 0x11346,
   .block 0x11349 0x1134a, .block 0x1134e 0x1134f, .block 0x11351 0x11356, .block 0x11358 0x1135c,
   .block 0x11364 0x11365, .block 0x1136d 0x1136f, .block 0x11375 0x1137f, .block 0x1138a 0x1138a,
   .block 0x1138c 0x1138d, .block 0x1138f 0x1138f, .block 0x113b6 0x113b6, .block 0x113c1 0x113c1,
   .block 0x113c3 0x113c4, .block 0x113c6 0x113c6, .block 0x113cb 0x113cb, .block 0x113d6 0x113d6,
   .block 0x113d9 0x113e0, .block 0x113e3 0x113ff, .block 0x1145c 0x1145c, .block 0x11462 0x1147f,
   .block 0x114c8 0x114cf, .block 0x114da 0x1157f, .block 0x115b6 0x115b7, .block 0x115de 0x115ff,
   .block 0x11645 0x1164f, .block 0x1165a 0x1165f, .block 0x1166d 0x1167f, .block 0x116ba 0x116bf,
   .block 0x116ca 0x116cf, .block 0x116e4 0x116ff, .block 0x1171b 0x1171c, .block 0x1172c 0x1172f,
   .block 0x11747 0x117ff, .block 0x1183c 0x1189f, .block 0x118f3 0x118fe, .block 0x11907 0x11908,
   .block 0x1190a 0x1190b, .block 0x11914 0x11914, .block 0x11917 0x11917, .block 0x11936 0x11936,
   .block 0x11939 0x1193a, .block 0x11947 0x1194f, .block 0x1195a 0x1199f, .block 0x119a8 0x119a9,
   .block 0x119d8 0x119d9, .block 0x119e5 0x119ff, .block 0x11a48 0x11a4f, .block 0x11aa3 0x11aaf,
   .block 0x11af9 0x11aff, .block 0x11b0a 0x11b5f, .block 0x11b68 0x11bbf, .block 0x11be2 0x11bef,
   .block 0x11bfa 0x11bff, .block 0x11c09 0x11c09, .block 0x11c37 0x11c37, .block 0x11c46 0x11c4f,
   .block 0x11c6d 0x11c6f, .block 0x11c90 0x11c91, .block 0x11ca8 0x11ca8, .block 0x11cb7 0x11cff,
   .block 0x11d07 0x11d07, .block 0x11d0a 0x11d0a, .block 0x11d37 0x11d39, .block 0x11d3b 0x11d3b,
   .block 0x11d3e 0x11d3e, .block 0x11d48 0x11d4f, .block 0x11d5a 0x11d5f, .block 0x11d66 0x11d66,
   .block 0x11d69 0x11d69, .block 0x11d8f 0x11d8f, .block 0x11d92 0x11d92, .block 0x11d99 0x11d9f,
   .block 0x11daa 0x11daf, .block 0x11ddc 0x11ddf, .block 0x11dea 0x11edf, .block 0x11ef9 0x11eff,
   .block 0x11f11 0x11f11, .block 0x11f3b 0x11f3d, .block 0x11f5b 0x11faf, .block 0x11fb1 0x11fbf,
   .block 0x11ff2 0x11ffe, .block 0x1239a 0x123ff, .block 0x1246f 0x1246f, .block 0x12475 0x1247f,
   .block 0x12544 0x12f8f, .block 0x12ff3 0x12fff, .block 0x13430 0x1343f, .block 0x13456 0x1345f,
   .block 0x143fb 0x143ff, .block 0x14647 0x160ff, .block 0x1613a 0x167ff, .block 0x16a39 0x16a3f,
   .block 0x16a5f 0x16a5f, .block 0x16a6a 0x16a6d, .block 0x16abf 0x16abf, .block 0x16aca 0x16acf,
   .block 0x16aee 0x16aef, .block 0x16af6 0x16aff, .block 0x16b46 0x16b4f, .block 0x16b5a 0x16b5a,
   .block 0x16b62 0x16b62, .block 0x16b78 0x16b7c, .block 0x16b90 0x16d3f, .block 0x16d7a 0x16e3f,
   .block 0x16e9b 0x16e9f, .block 0x16eb9 0x16eba, .block 0x16ed4 0x16eff, .block 0x16f4b 0x16f4e,
   .block 0x16f88 0x16f8e, .block 0x16fa0 0x16fdf, .block 0x16fe5 0x16fef, .block 0x16ff7 0x16fff,
   .block 0x18cd6 0x18cfe, .block 0x18d1f 0x18d7f, .block 0x18df3 0x1afef, .block 0x1aff4 0x1aff4,
   .block 0x1affc 0x1affc, .block 0x1afff 0x1afff, .block 0x1b123 0x1b131, .block 0x1b133 0x1b14f,
   .block 0x1b153 0x1b154, .block 0x1b156 0x1b163, .block 0x1b168 0x1b16f, .block 0x1b2fc 0x1bbff,
   .block 0x1bc6b 0x1bc6f, .block 0x1bc7d 0x1bc7f, .block 0x1bc89 0x1bc8f, .block 0x1bc9a 0x1bc9b,
   .block 0x1bca0 0x1cbff, .block 0x1ccfd 0x1ccff, .block 0x1ceb4 0x1ceb9, .block 0x1ced1 0x1cedf,
   .block 0x1cef1 0x1ceff, .block 0x1cf2e 0x1cf2f, .block 0x1cf47 0x1cf4f, .block 0x1cfc4 0x1cfff,
   .block 0x1d0f6 0x1d0ff, .block 0x1d127 0x1d128, .block 0x1d173 0x1d17a, .block 0x1d1eb 0x1d1ff,
   .block 0x1d246 0x1d2bf, .block 0x1d2d4 0x1d2df, .block 0x1d2f4 0x1d2ff, .block 0x1d357 0x1d35f,
   .block 0x1d379 0x1d3ff, .block 0x1d455 0x1d455, .block 0x1d49d 0x1d49d, .block 0x1d4a0 0x1d4a1,
   .block 0x1d4a3 0x1d4a4, .block 0x1d4a7 0x1d4a8, .block 0x1d4ad 0x1d4ad,
   .alternate 0x1d4ba 0x1d4bc, .block 0x1d4c4 0x1d4c4, .block 0x1d506 0x1d506,
   .block 0x1d50b 0x1d50c, .block 0x1d515 0x1d515, .block 0x1d51d 0x1d51d, .block 0x1d53a 0x1d53a,
   .block 0x1d53f 0x1d53f, .block 0x1d545 0x1d545, .block 0x1d547 0x1d549, .block 0x1d551 0x1d551,
   .block 0x1d6a6 0x1d6a7, .block 0x1d7cc 0x1d7cd, .block 0x1da8c 0x1da9a, .block 0x1daa0 0x1daa0,
   .block 0x1dab0 0x1deff, .block 0x1df1f 0x1df24, .block 0x1df2b 0x1dfff, .block 0x1e007 0x1e007,
   .block 0x1e019 0x1e01a, .block 0x1e022 0x1e022, .block 0x1e025 0x1e025, .block 0x1e02b 0x1e02f,
   .block 0x1e06e 0x1e08e, .block 0x1e090 0x1e0ff, .block 0x1e12d 0x1e12f, .block 0x1e13e 0x1e13f,
   .block 0x1e14a 0x1e14d, .block 0x1e150 0x1e28f, .block 0x1e2af 0x1e2bf, .block 0x1e2fa 0x1e2fe,
   .block 0x1e300 0x1e4cf, .block 0x1e4fa 0x1e5cf, .block 0x1e5fb 0x1e5fe, .block 0x1e600 0x1e6bf,
   .block 0x1e6df 0x1e6df, .block 0x1e6f6 0x1e6fd, .block 0x1e700 0x1e7df, .block 0x1e7e7 0x1e7e7,
   .block 0x1e7ec 0x1e7ec, .block 0x1e7ef 0x1e7ef, .block 0x1e7ff 0x1e7ff, .block 0x1e8c5 0x1e8c6,
   .block 0x1e8d7 0x1e8ff, .block 0x1e94c 0x1e94f, .block 0x1e95a 0x1e95d, .block 0x1e960 0x1ec70,
   .block 0x1ecb5 0x1ed00, .block 0x1ed3e 0x1edff, .block 0x1ee04 0x1ee04, .block 0x1ee20 0x1ee20,
   .block 0x1ee23 0x1ee23, .block 0x1ee25 0x1ee26, .block 0x1ee28 0x1ee28, .block 0x1ee33 0x1ee33,
   .alternate 0x1ee38 0x1ee3a, .block 0x1ee3c 0x1ee41, .block 0x1ee43 0x1ee46,
   .alternate 0x1ee48 0x1ee4c, .block 0x1ee50 0x1ee50, .block 0x1ee53 0x1ee53,
   .block 0x1ee55 0x1ee56, .alternate 0x1ee58 0x1ee60, .block 0x1ee63 0x1ee63,
   .block 0x1ee65 0x1ee66, .block 0x1ee6b 0x1ee6b, .block 0x1ee73 0x1ee73, .block 0x1ee78 0x1ee78,
   .alternate 0x1ee7d 0x1ee7f, .block 0x1ee8a 0x1ee8a, .block 0x1ee9c 0x1eea0,
   .block 0x1eea4 0x1eea4, .block 0x1eeaa 0x1eeaa, .block 0x1eebc 0x1eeef, .block 0x1eef2 0x1efff,
   .block 0x1f02c 0x1f02f, .block 0x1f094 0x1f09f, .block 0x1f0af 0x1f0b0, .block 0x1f0c0 0x1f0c0,
   .block 0x1f0d0 0x1f0d0, .block 0x1f0f6 0x1f0ff, .block 0x1f1ae 0x1f1e5, .block 0x1f203 0x1f20f,
   .block 0x1f23c 0x1f23f, .block 0x1f249 0x1f24f, .block 0x1f252 0x1f25f, .block 0x1f266 0x1f2ff,
   .block 0x1f6d9 0x1f6db, .block 0x1f6ed 0x1f6ef, .block 0x1f6fd 0x1f6ff, .block 0x1f7da 0x1f7df,
   .block 0x1f7ec 0x1f7ef, .block 0x1f7f1 0x1f7ff, .block 0x1f80c 0x1f80f, .block 0x1f848 0x1f84f,
   .block 0x1f85a 0x1f85f, .block 0x1f888 0x1f88f, .block 0x1f8ae 0x1f8af, .block 0x1f8bc 0x1f8bf,
   .block 0x1f8c2 0x1f8cf, .block 0x1f8d9 0x1f8ff, .block 0x1fa58 0x1fa5f, .block 0x1fa6e 0x1fa6f,
   .block 0x1fa7d 0x1fa7f, .block 0x1fa8b 0x1fa8d, .block 0x1fac7 0x1fac7, .block 0x1fac9 0x1facc,
   .block 0x1fadd 0x1fade, .block 0x1faeb 0x1faee, .block 0x1faf9 0x1faff, .block 0x1fb93 0x1fb93,
   .block 0x1fbfb 0x1ffff, .block 0x2a6e0 0x2a6ff, .block 0x2b81e 0x2b81f, .block 0x2ceae 0x2ceaf,
   .block 0x2ebe1 0x2ebef, .block 0x2ee5e 0x2f7ff, .block 0x2fa1e 0x2ffff, .block 0x3134b 0x3134f,
   .block 0x3347a 0xe00ff, .block 0xe01f0 0x10ffff]

/-- The code points of the property Grapheme_Extend that are no letters: all of them but the two
halfwidth katakana sound marks, which stand in a cell of their own. -/
def graphemeExtenderRuns : List CharRun :=
  [.block 0x300 0x36f, .block 0x483 0x489, .block 0x591 0x5bd, .block 0x5bf 0x5bf,
   .block 0x5c1 0x5c2, .block 0x5c4 0x5c5, .block 0x5c7 0x5c7, .block 0x610 0x61a,
   .block 0x64b 0x65f, .block 0x670 0x670, .block 0x6d6 0x6dc, .block 0x6df 0x6e4,
   .block 0x6e7 0x6e8, .block 0x6ea 0x6ed, .block 0x711 0x711, .block 0x730 0x74a,
   .block 0x7a6 0x7b0, .block 0x7eb 0x7f3, .block 0x7fd 0x7fd, .block 0x816 0x819,
   .block 0x81b 0x823, .block 0x825 0x827, .block 0x829 0x82d, .block 0x859 0x85b,
   .block 0x897 0x89f, .block 0x8ca 0x8e1, .block 0x8e3 0x902, .alternate 0x93a 0x93c,
   .block 0x941 0x948, .block 0x94d 0x94d, .block 0x951 0x957, .block 0x962 0x963,
   .block 0x981 0x981, .alternate 0x9bc 0x9be, .block 0x9c1 0x9c4, .block 0x9cd 0x9cd,
   .block 0x9d7 0x9d7, .block 0x9e2 0x9e3, .block 0x9fe 0x9fe, .block 0xa01 0xa02,
   .block 0xa3c 0xa3c, .block 0xa41 0xa42, .block 0xa47 0xa48, .block 0xa4b 0xa4d,
   .block 0xa51 0xa51, .block 0xa70 0xa71, .block 0xa75 0xa75, .block 0xa81 0xa82,
   .block 0xabc 0xabc, .block 0xac1 0xac5, .block 0xac7 0xac8, .block 0xacd 0xacd,
   .block 0xae2 0xae3, .block 0xafa 0xaff, .block 0xb01 0xb01, .block 0xb3c 0xb3c,
   .block 0xb3e 0xb3f, .block 0xb41 0xb44, .block 0xb4d 0xb4d, .block 0xb55 0xb57,
   .block 0xb62 0xb63, .block 0xb82 0xb82, .alternate 0xbbe 0xbc0, .block 0xbcd 0xbcd,
   .block 0xbd7 0xbd7, .block 0xc00 0xc00, .block 0xc04 0xc04, .block 0xc3c 0xc3c,
   .block 0xc3e 0xc40, .block 0xc46 0xc48, .block 0xc4a 0xc4d, .block 0xc55 0xc56,
   .block 0xc62 0xc63, .block 0xc81 0xc81, .block 0xcbc 0xcbc, .block 0xcbf 0xcc0,
   .block 0xcc2 0xcc2, .block 0xcc6 0xcc8, .block 0xcca 0xccd, .block 0xcd5 0xcd6,
   .block 0xce2 0xce3, .block 0xd00 0xd01, .block 0xd3b 0xd3c, .block 0xd3e 0xd3e,
   .block 0xd41 0xd44, .block 0xd4d 0xd4d, .block 0xd57 0xd57, .block 0xd62 0xd63,
   .block 0xd81 0xd81, .block 0xdca 0xdca, .block 0xdcf 0xdcf, .block 0xdd2 0xdd4,
   .block 0xdd6 0xdd6, .block 0xddf 0xddf, .block 0xe31 0xe31, .block 0xe34 0xe3a,
   .block 0xe47 0xe4e, .block 0xeb1 0xeb1, .block 0xeb4 0xebc, .block 0xec8 0xece,
   .block 0xf18 0xf19, .alternate 0xf35 0xf39, .block 0xf71 0xf7e, .block 0xf80 0xf84,
   .block 0xf86 0xf87, .block 0xf8d 0xf97, .block 0xf99 0xfbc, .block 0xfc6 0xfc6,
   .block 0x102d 0x1030, .block 0x1032 0x1037, .block 0x1039 0x103a, .block 0x103d 0x103e,
   .block 0x1058 0x1059, .block 0x105e 0x1060, .block 0x1071 0x1074, .block 0x1082 0x1082,
   .block 0x1085 0x1086, .block 0x108d 0x108d, .block 0x109d 0x109d, .block 0x135d 0x135f,
   .block 0x1712 0x1715, .block 0x1732 0x1734, .block 0x1752 0x1753, .block 0x1772 0x1773,
   .block 0x17b4 0x17b5, .block 0x17b7 0x17bd, .block 0x17c6 0x17c6, .block 0x17c9 0x17d3,
   .block 0x17dd 0x17dd, .block 0x180b 0x180d, .block 0x180f 0x180f, .block 0x1885 0x1886,
   .block 0x18a9 0x18a9, .block 0x1920 0x1922, .block 0x1927 0x1928, .block 0x1932 0x1932,
   .block 0x1939 0x193b, .block 0x1a17 0x1a18, .block 0x1a1b 0x1a1b, .block 0x1a56 0x1a56,
   .block 0x1a58 0x1a5e, .alternate 0x1a60 0x1a62, .block 0x1a65 0x1a6c, .block 0x1a73 0x1a7c,
   .block 0x1a7f 0x1a7f, .block 0x1ab0 0x1add, .block 0x1ae0 0x1aeb, .block 0x1b00 0x1b03,
   .block 0x1b34 0x1b3d, .block 0x1b42 0x1b44, .block 0x1b6b 0x1b73, .block 0x1b80 0x1b81,
   .block 0x1ba2 0x1ba5, .block 0x1ba8 0x1bad, .block 0x1be6 0x1be6, .block 0x1be8 0x1be9,
   .block 0x1bed 0x1bed, .block 0x1bef 0x1bf3, .block 0x1c2c 0x1c33, .block 0x1c36 0x1c37,
   .block 0x1cd0 0x1cd2, .block 0x1cd4 0x1ce0, .block 0x1ce2 0x1ce8, .block 0x1ced 0x1ced,
   .block 0x1cf4 0x1cf4, .block 0x1cf8 0x1cf9, .block 0x1dc0 0x1dff, .block 0x200c 0x200c,
   .block 0x20d0 0x20f0, .block 0x2cef 0x2cf1, .block 0x2d7f 0x2d7f, .block 0x2de0 0x2dff,
   .block 0x302a 0x302f, .block 0x3099 0x309a, .block 0xa66f 0xa672, .block 0xa674 0xa67d,
   .block 0xa69e 0xa69f, .block 0xa6f0 0xa6f1, .block 0xa802 0xa802, .block 0xa806 0xa806,
   .block 0xa80b 0xa80b, .block 0xa825 0xa826, .block 0xa82c 0xa82c, .block 0xa8c4 0xa8c5,
   .block 0xa8e0 0xa8f1, .block 0xa8ff 0xa8ff, .block 0xa926 0xa92d, .block 0xa947 0xa951,
   .block 0xa953 0xa953, .block 0xa980 0xa982, .block 0xa9b3 0xa9b3, .block 0xa9b6 0xa9b9,
   .block 0xa9bc 0xa9bd, .block 0xa9c0 0xa9c0, .block 0xa9e5 0xa9e5, .block 0xaa29 0xaa2e,
   .block 0xaa31 0xaa32, .block 0xaa35 0xaa36, .block 0xaa43 0xaa43, .block 0xaa4c 0xaa4c,
   .block 0xaa7c 0xaa7c, .block 0xaab0 0xaab0, .block 0xaab2 0xaab4, .block 0xaab7 0xaab8,
   .block 0xaabe 0xaabf, .block 0xaac1 0xaac1, .block 0xaaec 0xaaed, .block 0xaaf6 0xaaf6,
   .block 0xabe5 0xabe5, .block 0xabe8 0xabe8, .block 0xabed 0xabed, .block 0xfb1e 0xfb1e,
   .block 0xfe00 0xfe0f, .block 0xfe20 0xfe2f, .block 0x101fd 0x101fd,
   .block 0x102e0 0x102e0, .block 0x10376 0x1037a, .block 0x10a01 0x10a03, .block 0x10a05 0x10a06,
   .block 0x10a0c 0x10a0f, .block 0x10a38 0x10a3a, .block 0x10a3f 0x10a3f, .block 0x10ae5 0x10ae6,
   .block 0x10d24 0x10d27, .block 0x10d69 0x10d6d, .block 0x10eab 0x10eac, .block 0x10efa 0x10eff,
   .block 0x10f46 0x10f50, .block 0x10f82 0x10f85, .block 0x11001 0x11001, .block 0x11038 0x11046,
   .block 0x11070 0x11070, .block 0x11073 0x11074, .block 0x1107f 0x11081, .block 0x110b3 0x110b6,
   .block 0x110b9 0x110ba, .block 0x110c2 0x110c2, .block 0x11100 0x11102, .block 0x11127 0x1112b,
   .block 0x1112d 0x11134, .block 0x11173 0x11173, .block 0x11180 0x11181, .block 0x111b6 0x111be,
   .block 0x111c0 0x111c0, .block 0x111c9 0x111cc, .block 0x111cf 0x111cf, .block 0x1122f 0x11231,
   .block 0x11234 0x11237, .block 0x1123e 0x1123e, .block 0x11241 0x11241, .block 0x112df 0x112df,
   .block 0x112e3 0x112ea, .block 0x11300 0x11301, .block 0x1133b 0x1133c,
   .alternate 0x1133e 0x11340, .block 0x1134d 0x1134d, .block 0x11357 0x11357,
   .block 0x11366 0x1136c, .block 0x11370 0x11374, .block 0x113b8 0x113b8, .block 0x113bb 0x113c0,
   .block 0x113c2 0x113c2, .block 0x113c5 0x113c5, .block 0x113c7 0x113c9, .block 0x113ce 0x113d0,
   .block 0x113d2 0x113d2, .block 0x113e1 0x113e2, .block 0x11438 0x1143f, .block 0x11442 0x11444,
   .block 0x11446 0x11446, .block 0x1145e 0x1145e, .block 0x114b0 0x114b0, .block 0x114b3 0x114b8,
   .block 0x114ba 0x114ba, .block 0x114bd 0x114bd, .block 0x114bf 0x114c0, .block 0x114c2 0x114c3,
   .block 0x115af 0x115af, .block 0x115b2 0x115b5, .block 0x115bc 0x115bd, .block 0x115bf 0x115c0,
   .block 0x115dc 0x115dd, .block 0x11633 0x1163a, .block 0x1163d 0x1163d, .block 0x1163f 0x11640,
   .alternate 0x116ab 0x116ad, .block 0x116b0 0x116b7, .alternate 0x1171d 0x1171f,
   .block 0x11722 0x11725, .block 0x11727 0x1172b, .block 0x1182f 0x11837, .block 0x11839 0x1183a,
   .block 0x11930 0x11930, .block 0x1193b 0x1193e, .block 0x11943 0x11943, .block 0x119d4 0x119d7,
   .block 0x119da 0x119db, .block 0x119e0 0x119e0, .block 0x11a01 0x11a0a, .block 0x11a33 0x11a38,
   .block 0x11a3b 0x11a3e, .block 0x11a47 0x11a47, .block 0x11a51 0x11a56, .block 0x11a59 0x11a5b,
   .block 0x11a8a 0x11a96, .block 0x11a98 0x11a99, .block 0x11b60 0x11b60, .block 0x11b62 0x11b64,
   .block 0x11b66 0x11b66, .block 0x11c30 0x11c36, .block 0x11c38 0x11c3d, .block 0x11c3f 0x11c3f,
   .block 0x11c92 0x11ca7, .block 0x11caa 0x11cb0, .block 0x11cb2 0x11cb3, .block 0x11cb5 0x11cb6,
   .block 0x11d31 0x11d36, .block 0x11d3a 0x11d3a, .block 0x11d3c 0x11d3d, .block 0x11d3f 0x11d45,
   .block 0x11d47 0x11d47, .block 0x11d90 0x11d91, .alternate 0x11d95 0x11d97,
   .block 0x11ef3 0x11ef4, .block 0x11f00 0x11f01, .block 0x11f36 0x11f3a, .block 0x11f40 0x11f42,
   .block 0x11f5a 0x11f5a, .block 0x13440 0x13440, .block 0x13447 0x13455, .block 0x1611e 0x16129,
   .block 0x1612d 0x1612f, .block 0x16af0 0x16af4, .block 0x16b30 0x16b36, .block 0x16f4f 0x16f4f,
   .block 0x16f8f 0x16f92, .block 0x16fe4 0x16fe4, .block 0x16ff0 0x16ff1, .block 0x1bc9d 0x1bc9e,
   .block 0x1cf00 0x1cf2d, .block 0x1cf30 0x1cf46, .block 0x1d165 0x1d169, .block 0x1d16d 0x1d172,
   .block 0x1d17b 0x1d182, .block 0x1d185 0x1d18b, .block 0x1d1aa 0x1d1ad, .block 0x1d242 0x1d244,
   .block 0x1da00 0x1da36, .block 0x1da3b 0x1da6c, .block 0x1da75 0x1da75, .block 0x1da84 0x1da84,
   .block 0x1da9b 0x1da9f, .block 0x1daa1 0x1daaf, .block 0x1e000 0x1e006, .block 0x1e008 0x1e018,
   .block 0x1e01b 0x1e021, .block 0x1e023 0x1e024, .block 0x1e026 0x1e02a, .block 0x1e08f 0x1e08f,
   .block 0x1e130 0x1e136, .block 0x1e2ae 0x1e2ae, .block 0x1e2ec 0x1e2ef, .block 0x1e4ec 0x1e4ef,
   .block 0x1e5ee 0x1e5ef, .block 0x1e6e3 0x1e6e3, .block 0x1e6e6 0x1e6e6, .block 0x1e6ee 0x1e6ef,
   .block 0x1e6f5 0x1e6f5, .block 0x1e8d0 0x1e8d6, .block 0x1e944 0x1e94a, .block 0xe0020 0xe007f,
   .block 0xe0100 0xe01ef]

/-- The code points of the property Default_Ignorable_Code_Point. -/
def ignorableRuns : List CharRun :=
  [.block 0xad 0xad, .block 0x34f 0x34f, .block 0x61c 0x61c, .block 0x115f 0x1160,
   .block 0x17b4 0x17b5, .block 0x180b 0x180f, .block 0x200b 0x200f, .block 0x202a 0x202e,
   .block 0x2060 0x206f, .block 0x3164 0x3164, .block 0xfe00 0xfe0f, .block 0xfeff 0xfeff,
   .block 0xffa0 0xffa0, .block 0xfff0 0xfff8, .block 0x1bca0 0x1bca3, .block 0x1d173 0x1d17a,
   .block 0xe0000 0xe0fff]

/-- Whether a character is shown as it is: it has a glyph and does not extend the character before
it. -/
def isPrintable (character : Char) : Bool :=
  let code := character.toNat
  !inRuns unprintableRuns code && !inRuns graphemeExtenderRuns code && !inRuns ignorableRuns code

end Stencil.Text
