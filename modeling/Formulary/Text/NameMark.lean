import Formulary.Text.CodePointSet

namespace Formulary.Text

/-- The characters whose general category is Decimal Number. -/
def decimalDigits : CodePointSet where
  edges := [
    0x30, 0x3a, 0x660, 0x66a, 0x6f0, 0x6fa, 0x7c0, 0x7ca, 0x966, 0x970, 0x9e6, 0x9f0, 0xa66, 0xa70,
    0xae6, 0xaf0, 0xb66, 0xb70, 0xbe6, 0xbf0, 0xc66, 0xc70, 0xce6, 0xcf0, 0xd66, 0xd70, 0xde6,
    0xdf0, 0xe50, 0xe5a, 0xed0, 0xeda, 0xf20, 0xf2a, 0x1040, 0x104a, 0x1090, 0x109a, 0x17e0, 0x17ea,
    0x1810, 0x181a, 0x1946, 0x1950, 0x19d0, 0x19da, 0x1a80, 0x1a8a, 0x1a90, 0x1a9a, 0x1b50, 0x1b5a,
    0x1bb0, 0x1bba, 0x1c40, 0x1c4a, 0x1c50, 0x1c5a, 0xa620, 0xa62a, 0xa8d0, 0xa8da, 0xa900, 0xa90a,
    0xa9d0, 0xa9da, 0xa9f0, 0xa9fa, 0xaa50, 0xaa5a, 0xabf0, 0xabfa, 0xff10, 0xff1a, 0x104a0,
    0x104aa, 0x10d30, 0x10d3a, 0x10d40, 0x10d4a, 0x11066, 0x11070, 0x110f0, 0x110fa, 0x11136,
    0x11140, 0x111d0, 0x111da, 0x112f0, 0x112fa, 0x11450, 0x1145a, 0x114d0, 0x114da, 0x11650,
    0x1165a, 0x116c0, 0x116ca, 0x116d0, 0x116e4, 0x11730, 0x1173a, 0x118e0, 0x118ea, 0x11950,
    0x1195a, 0x11bf0, 0x11bfa, 0x11c50, 0x11c5a, 0x11d50, 0x11d5a, 0x11da0, 0x11daa, 0x11de0,
    0x11dea, 0x11f50, 0x11f5a, 0x16130, 0x1613a, 0x16a60, 0x16a6a, 0x16ac0, 0x16aca, 0x16b50,
    0x16b5a, 0x16d70, 0x16d7a, 0x1ccf0, 0x1ccfa, 0x1d7ce, 0x1d800, 0x1e140, 0x1e14a, 0x1e2f0,
    0x1e2fa, 0x1e4f0, 0x1e4fa, 0x1e5f1, 0x1e5fb, 0x1e950, 0x1e95a, 0x1fbf0, 0x1fbfa]

/-- The characters whose general category is Nonspacing Mark. -/
def nonspacingMarks : CodePointSet where
  edges := [
    0x300, 0x370, 0x483, 0x488, 0x591, 0x5be, 0x5bf, 0x5c0, 0x5c1, 0x5c3, 0x5c4, 0x5c6, 0x5c7,
    0x5c8, 0x610, 0x61b, 0x64b, 0x660, 0x670, 0x671, 0x6d6, 0x6dd, 0x6df, 0x6e5, 0x6e7, 0x6e9,
    0x6ea, 0x6ee, 0x711, 0x712, 0x730, 0x74b, 0x7a6, 0x7b1, 0x7eb, 0x7f4, 0x7fd, 0x7fe, 0x816,
    0x81a, 0x81b, 0x824, 0x825, 0x828, 0x829, 0x82e, 0x859, 0x85c, 0x897, 0x8a0, 0x8ca, 0x8e2,
    0x8e3, 0x903, 0x93a, 0x93b, 0x93c, 0x93d, 0x941, 0x949, 0x94d, 0x94e, 0x951, 0x958, 0x962,
    0x964, 0x981, 0x982, 0x9bc, 0x9bd, 0x9c1, 0x9c5, 0x9cd, 0x9ce, 0x9e2, 0x9e4, 0x9fe, 0x9ff,
    0xa01, 0xa03, 0xa3c, 0xa3d, 0xa41, 0xa43, 0xa47, 0xa49, 0xa4b, 0xa4e, 0xa51, 0xa52, 0xa70,
    0xa72, 0xa75, 0xa76, 0xa81, 0xa83, 0xabc, 0xabd, 0xac1, 0xac6, 0xac7, 0xac9, 0xacd, 0xace,
    0xae2, 0xae4, 0xafa, 0xb00, 0xb01, 0xb02, 0xb3c, 0xb3d, 0xb3f, 0xb40, 0xb41, 0xb45, 0xb4d,
    0xb4e, 0xb55, 0xb57, 0xb62, 0xb64, 0xb82, 0xb83, 0xbc0, 0xbc1, 0xbcd, 0xbce, 0xc00, 0xc01,
    0xc04, 0xc05, 0xc3c, 0xc3d, 0xc3e, 0xc41, 0xc46, 0xc49, 0xc4a, 0xc4e, 0xc55, 0xc57, 0xc62,
    0xc64, 0xc81, 0xc82, 0xcbc, 0xcbd, 0xcbf, 0xcc0, 0xcc6, 0xcc7, 0xccc, 0xcce, 0xce2, 0xce4,
    0xd00, 0xd02, 0xd3b, 0xd3d, 0xd41, 0xd45, 0xd4d, 0xd4e, 0xd62, 0xd64, 0xd81, 0xd82, 0xdca,
    0xdcb, 0xdd2, 0xdd5, 0xdd6, 0xdd7, 0xe31, 0xe32, 0xe34, 0xe3b, 0xe47, 0xe4f, 0xeb1, 0xeb2,
    0xeb4, 0xebd, 0xec8, 0xecf, 0xf18, 0xf1a, 0xf35, 0xf36, 0xf37, 0xf38, 0xf39, 0xf3a, 0xf71,
    0xf7f, 0xf80, 0xf85, 0xf86, 0xf88, 0xf8d, 0xf98, 0xf99, 0xfbd, 0xfc6, 0xfc7, 0x102d, 0x1031,
    0x1032, 0x1038, 0x1039, 0x103b, 0x103d, 0x103f, 0x1058, 0x105a, 0x105e, 0x1061, 0x1071, 0x1075,
    0x1082, 0x1083, 0x1085, 0x1087, 0x108d, 0x108e, 0x109d, 0x109e, 0x135d, 0x1360, 0x1712, 0x1715,
    0x1732, 0x1734, 0x1752, 0x1754, 0x1772, 0x1774, 0x17b4, 0x17b6, 0x17b7, 0x17be, 0x17c6, 0x17c7,
    0x17c9, 0x17d4, 0x17dd, 0x17de, 0x180b, 0x180e, 0x180f, 0x1810, 0x1885, 0x1887, 0x18a9, 0x18aa,
    0x1920, 0x1923, 0x1927, 0x1929, 0x1932, 0x1933, 0x1939, 0x193c, 0x1a17, 0x1a19, 0x1a1b, 0x1a1c,
    0x1a56, 0x1a57, 0x1a58, 0x1a5f, 0x1a60, 0x1a61, 0x1a62, 0x1a63, 0x1a65, 0x1a6d, 0x1a73, 0x1a7d,
    0x1a7f, 0x1a80, 0x1ab0, 0x1abe, 0x1abf, 0x1ade, 0x1ae0, 0x1aec, 0x1b00, 0x1b04, 0x1b34, 0x1b35,
    0x1b36, 0x1b3b, 0x1b3c, 0x1b3d, 0x1b42, 0x1b43, 0x1b6b, 0x1b74, 0x1b80, 0x1b82, 0x1ba2, 0x1ba6,
    0x1ba8, 0x1baa, 0x1bab, 0x1bae, 0x1be6, 0x1be7, 0x1be8, 0x1bea, 0x1bed, 0x1bee, 0x1bef, 0x1bf2,
    0x1c2c, 0x1c34, 0x1c36, 0x1c38, 0x1cd0, 0x1cd3, 0x1cd4, 0x1ce1, 0x1ce2, 0x1ce9, 0x1ced, 0x1cee,
    0x1cf4, 0x1cf5, 0x1cf8, 0x1cfa, 0x1dc0, 0x1e00, 0x20d0, 0x20dd, 0x20e1, 0x20e2, 0x20e5, 0x20f1,
    0x2cef, 0x2cf2, 0x2d7f, 0x2d80, 0x2de0, 0x2e00, 0x302a, 0x302e, 0x3099, 0x309b, 0xa66f, 0xa670,
    0xa674, 0xa67e, 0xa69e, 0xa6a0, 0xa6f0, 0xa6f2, 0xa802, 0xa803, 0xa806, 0xa807, 0xa80b, 0xa80c,
    0xa825, 0xa827, 0xa82c, 0xa82d, 0xa8c4, 0xa8c6, 0xa8e0, 0xa8f2, 0xa8ff, 0xa900, 0xa926, 0xa92e,
    0xa947, 0xa952, 0xa980, 0xa983, 0xa9b3, 0xa9b4, 0xa9b6, 0xa9ba, 0xa9bc, 0xa9be, 0xa9e5, 0xa9e6,
    0xaa29, 0xaa2f, 0xaa31, 0xaa33, 0xaa35, 0xaa37, 0xaa43, 0xaa44, 0xaa4c, 0xaa4d, 0xaa7c, 0xaa7d,
    0xaab0, 0xaab1, 0xaab2, 0xaab5, 0xaab7, 0xaab9, 0xaabe, 0xaac0, 0xaac1, 0xaac2, 0xaaec, 0xaaee,
    0xaaf6, 0xaaf7, 0xabe5, 0xabe6, 0xabe8, 0xabe9, 0xabed, 0xabee, 0xfb1e, 0xfb1f, 0xfe00, 0xfe10,
    0xfe20, 0xfe30, 0x101fd, 0x101fe, 0x102e0, 0x102e1, 0x10376, 0x1037b, 0x10a01, 0x10a04, 0x10a05,
    0x10a07, 0x10a0c, 0x10a10, 0x10a38, 0x10a3b, 0x10a3f, 0x10a40, 0x10ae5, 0x10ae7, 0x10d24,
    0x10d28, 0x10d69, 0x10d6e, 0x10eab, 0x10ead, 0x10efa, 0x10f00, 0x10f46, 0x10f51, 0x10f82,
    0x10f86, 0x11001, 0x11002, 0x11038, 0x11047, 0x11070, 0x11071, 0x11073, 0x11075, 0x1107f,
    0x11082, 0x110b3, 0x110b7, 0x110b9, 0x110bb, 0x110c2, 0x110c3, 0x11100, 0x11103, 0x11127,
    0x1112c, 0x1112d, 0x11135, 0x11173, 0x11174, 0x11180, 0x11182, 0x111b6, 0x111bf, 0x111c9,
    0x111cd, 0x111cf, 0x111d0, 0x1122f, 0x11232, 0x11234, 0x11235, 0x11236, 0x11238, 0x1123e,
    0x1123f, 0x11241, 0x11242, 0x112df, 0x112e0, 0x112e3, 0x112eb, 0x11300, 0x11302, 0x1133b,
    0x1133d, 0x11340, 0x11341, 0x11366, 0x1136d, 0x11370, 0x11375, 0x113bb, 0x113c1, 0x113ce,
    0x113cf, 0x113d0, 0x113d1, 0x113d2, 0x113d3, 0x113e1, 0x113e3, 0x11438, 0x11440, 0x11442,
    0x11445, 0x11446, 0x11447, 0x1145e, 0x1145f, 0x114b3, 0x114b9, 0x114ba, 0x114bb, 0x114bf,
    0x114c1, 0x114c2, 0x114c4, 0x115b2, 0x115b6, 0x115bc, 0x115be, 0x115bf, 0x115c1, 0x115dc,
    0x115de, 0x11633, 0x1163b, 0x1163d, 0x1163e, 0x1163f, 0x11641, 0x116ab, 0x116ac, 0x116ad,
    0x116ae, 0x116b0, 0x116b6, 0x116b7, 0x116b8, 0x1171d, 0x1171e, 0x1171f, 0x11720, 0x11722,
    0x11726, 0x11727, 0x1172c, 0x1182f, 0x11838, 0x11839, 0x1183b, 0x1193b, 0x1193d, 0x1193e,
    0x1193f, 0x11943, 0x11944, 0x119d4, 0x119d8, 0x119da, 0x119dc, 0x119e0, 0x119e1, 0x11a01,
    0x11a0b, 0x11a33, 0x11a39, 0x11a3b, 0x11a3f, 0x11a47, 0x11a48, 0x11a51, 0x11a57, 0x11a59,
    0x11a5c, 0x11a8a, 0x11a97, 0x11a98, 0x11a9a, 0x11b60, 0x11b61, 0x11b62, 0x11b65, 0x11b66,
    0x11b67, 0x11c30, 0x11c37, 0x11c38, 0x11c3e, 0x11c3f, 0x11c40, 0x11c92, 0x11ca8, 0x11caa,
    0x11cb1, 0x11cb2, 0x11cb4, 0x11cb5, 0x11cb7, 0x11d31, 0x11d37, 0x11d3a, 0x11d3b, 0x11d3c,
    0x11d3e, 0x11d3f, 0x11d46, 0x11d47, 0x11d48, 0x11d90, 0x11d92, 0x11d95, 0x11d96, 0x11d97,
    0x11d98, 0x11ef3, 0x11ef5, 0x11f00, 0x11f02, 0x11f36, 0x11f3b, 0x11f40, 0x11f41, 0x11f42,
    0x11f43, 0x11f5a, 0x11f5b, 0x13440, 0x13441, 0x13447, 0x13456, 0x1611e, 0x1612a, 0x1612d,
    0x16130, 0x16af0, 0x16af5, 0x16b30, 0x16b37, 0x16f4f, 0x16f50, 0x16f8f, 0x16f93, 0x16fe4,
    0x16fe5, 0x1bc9d, 0x1bc9f, 0x1cf00, 0x1cf2e, 0x1cf30, 0x1cf47, 0x1d167, 0x1d16a, 0x1d17b,
    0x1d183, 0x1d185, 0x1d18c, 0x1d1aa, 0x1d1ae, 0x1d242, 0x1d245, 0x1da00, 0x1da37, 0x1da3b,
    0x1da6d, 0x1da75, 0x1da76, 0x1da84, 0x1da85, 0x1da9b, 0x1daa0, 0x1daa1, 0x1dab0, 0x1e000,
    0x1e007, 0x1e008, 0x1e019, 0x1e01b, 0x1e022, 0x1e023, 0x1e025, 0x1e026, 0x1e02b, 0x1e08f,
    0x1e090, 0x1e130, 0x1e137, 0x1e2ae, 0x1e2af, 0x1e2ec, 0x1e2f0, 0x1e4ec, 0x1e4f0, 0x1e5ee,
    0x1e5f0, 0x1e6e3, 0x1e6e4, 0x1e6e6, 0x1e6e7, 0x1e6ee, 0x1e6f0, 0x1e6f5, 0x1e6f6, 0x1e8d0,
    0x1e8d7, 0x1e944, 0x1e94b, 0xe0100, 0xe01f0]

def isDecimalDigit (c : Char) : Bool := decimalDigits.contains c

def isNonspacingMark (c : Char) : Bool := nonspacingMarks.contains c

end Formulary.Text
