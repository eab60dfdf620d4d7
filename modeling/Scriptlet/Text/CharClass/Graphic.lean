/-!
# Other graphic characters

The code points beyond ASCII that leave ink and are in no other table: spacing and enclosing
marks, numbers that are no decimal digits, punctuation that does not connect, symbols (`Mc`,
`Me`, `Nl`, `No`, `Pd`, `Ps`, `Pe`, `Pi`, `Pf`, `Po`, `Sm`, `Sc`, `Sk`, `So`), as ranges with
both ends included, in increasing order, in Unicode 17.0.
-/

namespace Scriptlet.CharClass

def graphicRanges : List (Nat × Nat) := [
  (0x00A1, 0x00A9), (0x00AB, 0x00AC), (0x00AE, 0x00B4), (0x00B6, 0x00B9), (0x00BB, 0x00BF),
  (0x00D7, 0x00D7), (0x00F7, 0x00F7), (0x02C2, 0x02C5), (0x02D2, 0x02DF), (0x02E5, 0x02EB),
  (0x02ED, 0x02ED), (0x02EF, 0x02FF), (0x0375, 0x0375), (0x037E, 0x037E), (0x0384, 0x0385),
  (0x0387, 0x0387), (0x03F6, 0x03F6), (0x0482, 0x0482), (0x0488, 0x0489), (0x055A, 0x055F),
  (0x0589, 0x058A), (0x058D, 0x058F), (0x05BE, 0x05BE), (0x05C0, 0x05C0), (0x05C3, 0x05C3),
  (0x05C6, 0x05C6), (0x05F3, 0x05F4), (0x0606, 0x060F), (0x061B, 0x061B), (0x061D, 0x061F),
  (0x066A, 0x066D), (0x06D4, 0x06D4), (0x06DE, 0x06DE), (0x06E9, 0x06E9), (0x06FD, 0x06FE),
  (0x0700, 0x070D), (0x07F6, 0x07F9), (0x07FE, 0x07FF), (0x0830, 0x083E), (0x085E, 0x085E),
  (0x0888, 0x0888), (0x0903, 0x0903), (0x093B, 0x093B), (0x093E, 0x0940), (0x0949, 0x094C),
  (0x094E, 0x094F), (0x0964, 0x0965), (0x0970, 0x0970), (0x0982, 0x0983), (0x09BE, 0x09C0),
  (0x09C7, 0x09C8), (0x09CB, 0x09CC), (0x09D7, 0x09D7), (0x09F2, 0x09FB), (0x09FD, 0x09FD),
  (0x0A03, 0x0A03), (0x0A3E, 0x0A40), (0x0A76, 0x0A76), (0x0A83, 0x0A83), (0x0ABE, 0x0AC0),
  (0x0AC9, 0x0AC9), (0x0ACB, 0x0ACC), (0x0AF0, 0x0AF1), (0x0B02, 0x0B03), (0x0B3E, 0x0B3E),
  (0x0B40, 0x0B40), (0x0B47, 0x0B48), (0x0B4B, 0x0B4C), (0x0B57, 0x0B57), (0x0B70, 0x0B70),
  (0x0B72, 0x0B77), (0x0BBE, 0x0BBF), (0x0BC1, 0x0BC2), (0x0BC6, 0x0BC8), (0x0BCA, 0x0BCC),
  (0x0BD7, 0x0BD7), (0x0BF0, 0x0BFA), (0x0C01, 0x0C03), (0x0C41, 0x0C44), (0x0C77, 0x0C7F),
  (0x0C82, 0x0C84), (0x0CBE, 0x0CBE), (0x0CC0, 0x0CC4), (0x0CC7, 0x0CC8), (0x0CCA, 0x0CCB),
  (0x0CD5, 0x0CD6), (0x0CF3, 0x0CF3), (0x0D02, 0x0D03), (0x0D3E, 0x0D40), (0x0D46, 0x0D48),
  (0x0D4A, 0x0D4C), (0x0D4F, 0x0D4F), (0x0D57, 0x0D5E), (0x0D70, 0x0D79), (0x0D82, 0x0D83),
  (0x0DCF, 0x0DD1), (0x0DD8, 0x0DDF), (0x0DF2, 0x0DF4), (0x0E3F, 0x0E3F), (0x0E4F, 0x0E4F),
  (0x0E5A, 0x0E5B), (0x0F01, 0x0F17), (0x0F1A, 0x0F1F), (0x0F2A, 0x0F34), (0x0F36, 0x0F36),
  (0x0F38, 0x0F38), (0x0F3A, 0x0F3F), (0x0F7F, 0x0F7F), (0x0F85, 0x0F85), (0x0FBE, 0x0FC5),
  (0x0FC7, 0x0FCC), (0x0FCE, 0x0FDA), (0x102B, 0x102C), (0x1031, 0x1031), (0x1038, 0x1038),
  (0x103B, 0x103C), (0x104A, 0x104F), (0x1056, 0x1057), (0x1062, 0x1064), (0x1067, 0x106D),
  (0x1083, 0x1084), (0x1087, 0x108C), (0x108F, 0x108F), (0x109A, 0x109C), (0x109E, 0x109F),
  (0x10FB, 0x10FB), (0x1360, 0x137C), (0x1390, 0x1399), (0x1400, 0x1400), (0x166D, 0x166E),
  (0x169B, 0x169C), (0x16EB, 0x16F0), (0x1715, 0x1715), (0x1734, 0x1736), (0x17B6, 0x17B6),
  (0x17BE, 0x17C5), (0x17C7, 0x17C8), (0x17D4, 0x17D6), (0x17D8, 0x17DB), (0x17F0, 0x17F9),
  (0x1800, 0x180A), (0x1923, 0x1926), (0x1929, 0x192B), (0x1930, 0x1931), (0x1933, 0x1938),
  (0x1940, 0x1940), (0x1944, 0x1945), (0x19DA, 0x19DA), (0x19DE, 0x19FF), (0x1A19, 0x1A1A),
  (0x1A1E, 0x1A1F), (0x1A55, 0x1A55), (0x1A57, 0x1A57), (0x1A61, 0x1A61), (0x1A63, 0x1A64),
  (0x1A6D, 0x1A72), (0x1AA0, 0x1AA6), (0x1AA8, 0x1AAD), (0x1ABE, 0x1ABE), (0x1B04, 0x1B04),
  (0x1B35, 0x1B35), (0x1B3B, 0x1B3B), (0x1B3D, 0x1B41), (0x1B43, 0x1B44), (0x1B4E, 0x1B4F),
  (0x1B5A, 0x1B6A), (0x1B74, 0x1B7F), (0x1B82, 0x1B82), (0x1BA1, 0x1BA1), (0x1BA6, 0x1BA7),
  (0x1BAA, 0x1BAA), (0x1BE7, 0x1BE7), (0x1BEA, 0x1BEC), (0x1BEE, 0x1BEE), (0x1BF2, 0x1BF3),
  (0x1BFC, 0x1BFF), (0x1C24, 0x1C2B), (0x1C34, 0x1C35), (0x1C3B, 0x1C3F), (0x1C7E, 0x1C7F),
  (0x1CC0, 0x1CC7), (0x1CD3, 0x1CD3), (0x1CE1, 0x1CE1), (0x1CF7, 0x1CF7), (0x1FBD, 0x1FBD),
  (0x1FBF, 0x1FC1), (0x1FCD, 0x1FCF), (0x1FDD, 0x1FDF), (0x1FED, 0x1FEF), (0x1FFD, 0x1FFE),
  (0x2010, 0x2027), (0x2030, 0x203E), (0x2041, 0x2053), (0x2055, 0x205E), (0x2070, 0x2070),
  (0x2074, 0x207E), (0x2080, 0x208E), (0x20A0, 0x20C1), (0x20DD, 0x20E0), (0x20E2, 0x20E4),
  (0x2100, 0x2101), (0x2103, 0x2106), (0x2108, 0x2109), (0x2114, 0x2114), (0x2116, 0x2118),
  (0x211E, 0x2123), (0x2125, 0x2125), (0x2127, 0x2127), (0x2129, 0x2129), (0x212E, 0x212E),
  (0x213A, 0x213B), (0x2140, 0x2144), (0x214A, 0x214D), (0x214F, 0x2182), (0x2185, 0x218B),
  (0x2190, 0x2429), (0x2440, 0x244A), (0x2460, 0x2B73), (0x2B76, 0x2BFF), (0x2CE5, 0x2CEA),
  (0x2CF9, 0x2CFF), (0x2D70, 0x2D70), (0x2E00, 0x2E2E), (0x2E30, 0x2E5D), (0x2E80, 0x2E99),
  (0x2E9B, 0x2EF3), (0x2F00, 0x2FD5), (0x2FF0, 0x2FFF), (0x3001, 0x3004), (0x3007, 0x3029),
  (0x302E, 0x3030), (0x3036, 0x303A), (0x303D, 0x303F), (0x309B, 0x309C), (0x30A0, 0x30A0),
  (0x30FB, 0x30FB), (0x3190, 0x319F), (0x31C0, 0x31E5), (0x31EF, 0x31EF), (0x3200, 0x321E),
  (0x3220, 0x33FF), (0x4DC0, 0x4DFF), (0xA490, 0xA4C6), (0xA4FE, 0xA4FF), (0xA60D, 0xA60F),
  (0xA670, 0xA673), (0xA67E, 0xA67E), (0xA6E6, 0xA6EF), (0xA6F2, 0xA6F7), (0xA700, 0xA716),
  (0xA720, 0xA721), (0xA789, 0xA78A), (0xA823, 0xA824), (0xA827, 0xA82B), (0xA830, 0xA839),
  (0xA874, 0xA877), (0xA880, 0xA881), (0xA8B4, 0xA8C3), (0xA8CE, 0xA8CF), (0xA8F8, 0xA8FA),
  (0xA8FC, 0xA8FC), (0xA92E, 0xA92F), (0xA952, 0xA953), (0xA95F, 0xA95F), (0xA983, 0xA983),
  (0xA9B4, 0xA9B5), (0xA9BA, 0xA9BB), (0xA9BE, 0xA9CD), (0xA9DE, 0xA9DF), (0xAA2F, 0xAA30),
  (0xAA33, 0xAA34), (0xAA4D, 0xAA4D), (0xAA5C, 0xAA5F), (0xAA77, 0xAA79), (0xAA7B, 0xAA7B),
  (0xAA7D, 0xAA7D), (0xAADE, 0xAADF), (0xAAEB, 0xAAEB), (0xAAEE, 0xAAF1), (0xAAF5, 0xAAF5),
  (0xAB5B, 0xAB5B), (0xAB6A, 0xAB6B), (0xABE3, 0xABE4), (0xABE6, 0xABE7), (0xABE9, 0xABEC),
  (0xFB29, 0xFB29), (0xFBB2, 0xFBD2), (0xFD3E, 0xFD4F), (0xFD90, 0xFD91), (0xFDC8, 0xFDCF),
  (0xFDFC, 0xFDFF), (0xFE10, 0xFE19), (0xFE30, 0xFE32), (0xFE35, 0xFE4C), (0xFE50, 0xFE52),
  (0xFE54, 0xFE66), (0xFE68, 0xFE6B), (0xFF01, 0xFF0F), (0xFF1A, 0xFF20), (0xFF3B, 0xFF3E),
  (0xFF40, 0xFF40), (0xFF5B, 0xFF65), (0xFFE0, 0xFFE6), (0xFFE8, 0xFFEE), (0xFFFC, 0xFFFD),
  (0x10100, 0x10102), (0x10107, 0x10133), (0x10137, 0x1018E), (0x10190, 0x1019C),
  (0x101A0, 0x101A0), (0x101D0, 0x101FC), (0x102E1, 0x102FB), (0x10320, 0x10323),
  (0x10341, 0x10341), (0x1034A, 0x1034A), (0x1039F, 0x1039F), (0x103D0, 0x103D5),
  (0x1056F, 0x1056F), (0x10857, 0x1085F), (0x10877, 0x1087F), (0x108A7, 0x108AF),
  (0x108FB, 0x108FF), (0x10916, 0x1091B), (0x1091F, 0x1091F), (0x1093F, 0x1093F),
  (0x109BC, 0x109BD), (0x109C0, 0x109CF), (0x109D2, 0x109FF), (0x10A40, 0x10A48),
  (0x10A50, 0x10A58), (0x10A7D, 0x10A7F), (0x10A9D, 0x10A9F), (0x10AC8, 0x10AC8),
  (0x10AEB, 0x10AF6), (0x10B39, 0x10B3F), (0x10B58, 0x10B5F), (0x10B78, 0x10B7F),
  (0x10B99, 0x10B9C), (0x10BA9, 0x10BAF), (0x10CFA, 0x10CFF), (0x10D6E, 0x10D6E),
  (0x10D8E, 0x10D8F), (0x10E60, 0x10E7E), (0x10EAD, 0x10EAD), (0x10ED0, 0x10ED8),
  (0x10F1D, 0x10F26), (0x10F51, 0x10F59), (0x10F86, 0x10F89), (0x10FC5, 0x10FCB),
  (0x11000, 0x11000), (0x11002, 0x11002), (0x11047, 0x1104D), (0x11052, 0x11065),
  (0x11082, 0x11082), (0x110B0, 0x110B2), (0x110B7, 0x110B8), (0x110BB, 0x110BC),
  (0x110BE, 0x110C1), (0x1112C, 0x1112C), (0x11140, 0x11143), (0x11145, 0x11146),
  (0x11174, 0x11175), (0x11182, 0x11182), (0x111B3, 0x111B5), (0x111BF, 0x111C0),
  (0x111C5, 0x111C8), (0x111CD, 0x111CE), (0x111DB, 0x111DB), (0x111DD, 0x111DF),
  (0x111E1, 0x111F4), (0x1122C, 0x1122E), (0x11232, 0x11233), (0x11235, 0x11235),
  (0x11238, 0x1123D), (0x112A9, 0x112A9), (0x112E0, 0x112E2), (0x11302, 0x11303),
  (0x1133E, 0x1133F), (0x11341, 0x11344), (0x11347, 0x11348), (0x1134B, 0x1134D),
  (0x11357, 0x11357), (0x11362, 0x11363), (0x113B8, 0x113BA), (0x113C2, 0x113C2),
  (0x113C5, 0x113C5), (0x113C7, 0x113CA), (0x113CC, 0x113CD), (0x113CF, 0x113CF),
  (0x113D4, 0x113D5), (0x113D7, 0x113D8), (0x11435, 0x11437), (0x11440, 0x11441),
  (0x11445, 0x11445), (0x1144B, 0x1144F), (0x1145A, 0x1145B), (0x1145D, 0x1145D),
  (0x114B0, 0x114B2), (0x114B9, 0x114B9), (0x114BB, 0x114BE), (0x114C1, 0x114C1),
  (0x114C6, 0x114C6), (0x115AF, 0x115B1), (0x115B8, 0x115BB), (0x115BE, 0x115BE),
  (0x115C1, 0x115D7), (0x11630, 0x11632), (0x1163B, 0x1163C), (0x1163E, 0x1163E),
  (0x11641, 0x11643), (0x11660, 0x1166C), (0x116AC, 0x116AC), (0x116AE, 0x116AF),
  (0x116B6, 0x116B6), (0x116B9, 0x116B9), (0x1171E, 0x1171E), (0x11720, 0x11721),
  (0x11726, 0x11726), (0x1173A, 0x1173F), (0x1182C, 0x1182E), (0x11838, 0x11838),
  (0x1183B, 0x1183B), (0x118EA, 0x118F2), (0x11930, 0x11935), (0x11937, 0x11938),
  (0x1193D, 0x1193D), (0x11940, 0x11940), (0x11942, 0x11942), (0x11944, 0x11946),
  (0x119D1, 0x119D3), (0x119DC, 0x119DF), (0x119E2, 0x119E2), (0x119E4, 0x119E4),
  (0x11A39, 0x11A39), (0x11A3F, 0x11A46), (0x11A57, 0x11A58), (0x11A97, 0x11A97),
  (0x11A9A, 0x11A9C), (0x11A9E, 0x11AA2), (0x11B00, 0x11B09), (0x11B61, 0x11B61),
  (0x11B65, 0x11B65), (0x11B67, 0x11B67), (0x11BE1, 0x11BE1), (0x11C2F, 0x11C2F),
  (0x11C3E, 0x11C3E), (0x11C41, 0x11C45), (0x11C5A, 0x11C6C), (0x11C70, 0x11C71),
  (0x11CA9, 0x11CA9), (0x11CB1, 0x11CB1), (0x11CB4, 0x11CB4), (0x11D8A, 0x11D8E),
  (0x11D93, 0x11D94), (0x11D96, 0x11D96), (0x11EF5, 0x11EF8), (0x11F03, 0x11F03),
  (0x11F34, 0x11F35), (0x11F3E, 0x11F3F), (0x11F41, 0x11F41), (0x11F43, 0x11F4F),
  (0x11FC0, 0x11FF1), (0x11FFF, 0x11FFF), (0x12400, 0x1246E), (0x12470, 0x12474),
  (0x12FF1, 0x12FF2), (0x1612A, 0x1612C), (0x16A6E, 0x16A6F), (0x16AF5, 0x16AF5),
  (0x16B37, 0x16B3F), (0x16B44, 0x16B45), (0x16B5B, 0x16B61), (0x16D6D, 0x16D6F),
  (0x16E80, 0x16E9A), (0x16F51, 0x16F87), (0x16FE2, 0x16FE2), (0x16FF0, 0x16FF1),
  (0x16FF4, 0x16FF6), (0x1BC9C, 0x1BC9C), (0x1BC9F, 0x1BC9F), (0x1CC00, 0x1CCEF),
  (0x1CCFA, 0x1CCFC), (0x1CD00, 0x1CEB3), (0x1CEBA, 0x1CED0), (0x1CEE0, 0x1CEF0),
  (0x1CF50, 0x1CFC3), (0x1D000, 0x1D0F5), (0x1D100, 0x1D126), (0x1D129, 0x1D166),
  (0x1D16A, 0x1D172), (0x1D183, 0x1D184), (0x1D18C, 0x1D1A9), (0x1D1AE, 0x1D1EA),
  (0x1D200, 0x1D241), (0x1D245, 0x1D245), (0x1D2C0, 0x1D2D3), (0x1D2E0, 0x1D2F3),
  (0x1D300, 0x1D356), (0x1D360, 0x1D378), (0x1D6C1, 0x1D6C1), (0x1D6DB, 0x1D6DB),
  (0x1D6FB, 0x1D6FB), (0x1D715, 0x1D715), (0x1D735, 0x1D735), (0x1D74F, 0x1D74F),
  (0x1D76F, 0x1D76F), (0x1D789, 0x1D789), (0x1D7A9, 0x1D7A9), (0x1D7C3, 0x1D7C3),
  (0x1D800, 0x1D9FF), (0x1DA37, 0x1DA3A), (0x1DA6D, 0x1DA74), (0x1DA76, 0x1DA83),
  (0x1DA85, 0x1DA8B), (0x1E14F, 0x1E14F), (0x1E2FF, 0x1E2FF), (0x1E5FF, 0x1E5FF),
  (0x1E8C7, 0x1E8CF), (0x1E95E, 0x1E95F), (0x1EC71, 0x1ECB4), (0x1ED01, 0x1ED3D),
  (0x1EEF0, 0x1EEF1), (0x1F000, 0x1F02B), (0x1F030, 0x1F093), (0x1F0A0, 0x1F0AE),
  (0x1F0B1, 0x1F0BF), (0x1F0C1, 0x1F0CF), (0x1F0D1, 0x1F0F5), (0x1F100, 0x1F1AD),
  (0x1F1E6, 0x1F202), (0x1F210, 0x1F23B), (0x1F240, 0x1F248), (0x1F250, 0x1F251),
  (0x1F260, 0x1F265), (0x1F300, 0x1F6D8), (0x1F6DC, 0x1F6EC), (0x1F6F0, 0x1F6FC),
  (0x1F700, 0x1F7D9), (0x1F7E0, 0x1F7EB), (0x1F7F0, 0x1F7F0), (0x1F800, 0x1F80B),
  (0x1F810, 0x1F847), (0x1F850, 0x1F859), (0x1F860, 0x1F887), (0x1F890, 0x1F8AD),
  (0x1F8B0, 0x1F8BB), (0x1F8C0, 0x1F8C1), (0x1F8D0, 0x1F8D8), (0x1F900, 0x1FA57),
  (0x1FA60, 0x1FA6D), (0x1FA70, 0x1FA7C), (0x1FA80, 0x1FA8A), (0x1FA8E, 0x1FAC6),
  (0x1FAC8, 0x1FAC8), (0x1FACD, 0x1FADC), (0x1FADF, 0x1FAEA), (0x1FAEF, 0x1FAF8),
  (0x1FB00, 0x1FB92), (0x1FB94, 0x1FBEF), (0x1FBFA, 0x1FBFA)]

end Scriptlet.CharClass
