import IncrementalGlr.Unicode.Run

/-!
# Scripts

The code points of each script, as texts of gaps and lengths.
-/

namespace IncrementalGlr

namespace Unicode

namespace Script

/-- Every script: its names in lower case and without separators, the short one first, and its code
points. -/
def table : List (List String × List String) :=
  [(["adlm", "adlam"], ["125184 76 4 10 4 2"]),
   (["ahom"], ["71424 27 2 15 4 23"]),
   (["hluw", "anatolianhieroglyphs"], ["82944 583"]),
   (["arab", "arabic"],
    ["1536 5 1 6 1 14 1 3 1 32 1 10 11 26 1 108 1 34 80 48 240 31 1 2 5 75 1 29 62032 115 16",
     "363 2 80 2 54 7 1 32 16 112 5 1 135 3939 31 67 3 55 4 57088 4 1 27 1 2 1 1 2 1 1 10 1 4 1",
     "1 1 1 6 1 4 1 1 1 1 1 1 3 1 2 1 1 2 1 1 1 1 1 1 1 1 1 1 2 1 1 2 4 1 7 1 4 1 4 1 1 1 10 1",
     "17 5 3 1 5 1 17 52 2"]),
   (["armn", "armenian"], ["1329 38 2 50 2 3 62851 5"]),
   (["avst", "avestan"], ["68352 54 3 7"]),
   (["bali", "balinese"], ["6912 77 1 50"]),
   (["bamu", "bamum"], ["42656 88 49416 569"]),
   (["bass", "bassavah"], ["92880 30 2 6"]),
   (["batk", "batak"], ["7104 52 8 4"]),
   (["beng", "bengali"], ["2432 4 1 8 2 2 2 22 1 7 1 1 3 4 2 9 2 2 2 4 8 1 4 2 1 5 2 25"]),
   (["bhks", "bhaiksuki"], ["72704 9 1 45 1 14 10 29"]),
   (["bopo", "bopomofo"], ["746 2 11801 43 112 32"]),
   (["brah", "brahmi"], ["69632 78 4 36 9 1"]),
   (["brai", "braille"], ["10240 256"]),
   (["bugi", "buginese"], ["6656 28 2 2"]),
   (["buhd", "buhid"], ["5952 20"]),
   (["cans", "canadianaboriginal"], ["5120 640 560 70 65978 16"]),
   (["cari", "carian"], ["66208 49"]),
   (["aghb", "caucasianalbanian"], ["66864 52 11 1"]),
   (["cakm", "chakma"], ["69888 53 1 18"]),
   (["cham"], ["43520 55 9 14 2 10 2 4"]),
   (["cher", "cherokee"], ["5024 86 2 6 38770 80"]),
   (["chrs", "chorasmian"], ["69552 28"]),
   (["zyyy", "common"],
    ["0 65 26 6 26 47 1 15 1 5 23 1 31 1 449 39 5 5 2 20 116 1 9 1 6 1 1 1 637 1 6 1 14 1 3 1",
     "32 1 156 1 516 1 129 2 1241 1 405 4 290 1 1519 3 71 2 203 2 1 1 1229 1 13 1 7 4 1 6 1 3 2",
     "1 773 12 2 87 1 11 3 11 1 15 17 33 63 38 1 3 2 6 1 27 1 17 41 3 4 666 22 11 21 928 256",
     "628 2 32 1 105 512 94 402 21 1 1 1 25 15 8 4 4 91 2 3 1 90 2 147 16 32 38 9 1 48 64 31 81",
     "47 1 88 168 6592 64 22784 34 102 3 165 10 244 1 160 1 395 1 14 2 20946 2 208 10 22 35 1",
     "19 1 4 147 1 1 32 26 6 26 11 10 1 45 2 64 7 1 7 10 5 258 3 4 45 3 9 80 13 51 45 228 27",
     "47524 4 3932 250 6 436 156 116 60 246 10 39 2 62 3 17 8 2 7 30 4 61 213 20 12 20 12 87 9",
     "25 135 85 1 71 1 2 2 1 2 2 2 4 1 12 1 1 1 7 1 65 1 4 2 8 1 7 1 28 1 4 1 5 1 1 3 7 1 340 2",
     "292 2 50 5233 68 76 61 706 44 4 100 12 15 2 15 1 15 1 37 10 174 56 26 1 2 13 44 4 9 7 2",
     "14 6 154 984 4 17 3 13 3 119 4 95 6 12 4 1 15 12 4 56 8 10 6 40 8 30 2 12 4 2 62 340 12",
     "14 2 13 3 10 5 56 7 15 2 11 6 9 7 147 1 102 787463 1 30 96"]),
   (["copt", "coptic", "qaac"], ["994 14 10384 116 5 7"]),
   (["xsux", "cuneiform"], ["73728 922 102 111 1 5 11 196"]),
   (["cprt", "cypriot"], ["67584 6 2 1 1 44 1 2 3 1 2 1"]),
   (["cpmn", "cyprominoan"], ["77712 99"]),
   (["cyrl", "cyrillic"],
    ["1024 133 2 169 5968 11 160 1 76 1 4199 32 30784 96 22414 2 57856 62 33 1"]),
   (["dsrt", "deseret"], ["66560 80"]),
   (["deva", "devanagari"], ["2304 81 4 15 2 26 40800 32 29184 10"]),
   (["diak", "divesakuru"], ["71936 7 2 1 2 8 1 2 1 30 1 2 2 12 9 10"]),
   (["dogr", "dogra"], ["71680 60"]),
   (["dupl", "duployan"], ["113664 107 5 13 3 9 7 10 2 4"]),
   (["egyp", "egyptianhieroglyphs"], ["77824 1110 10 3995"]),
   (["elba", "elbasan"], ["66816 40"]),
   (["elym", "elymaic"], ["69600 23"]),
   (["ethi", "ethiopic"],
    ["4608 73 1 4 2 7 1 1 1 4 2 41 1 4 2 33 1 4 2 7 1 1 1 4 2 15 1 57 1 4 2 67 2 32 3 26 6630",
     "23 9 7 1 7 1 7 1 7 1 7 1 7 1 7 1 7 32034 6 2 6 2 6 9 7 1 7 81073 7 1 4 1 2 1 15"]),
   (["gara", "garay"], ["68928 38 3 29 8 2"]),
   (["geor", "georgian"], ["4256 38 1 1 5 1 2 43 1 4 2960 43 2 3 4160 38 1 1 5 1"]),
   (["glag", "glagolitic"], ["11264 96 111520 7 1 17 2 7 1 2 1 5"]),
   (["goth", "gothic"], ["66352 27"]),
   (["gran", "grantha"], ["70400 4 1 8 2 2 2 22 1 7 1 2 1 5 2 9 2 2 2 3 2 1 6 1 5 7 2 7 3 5"]),
   (["grek", "greek"],
    ["880 4 1 3 2 4 1 1 4 1 1 1 1 3 1 1 1 20 1 63 14 16 6438 5 50 5 4 5 84 1 320 22 2 6 2 38 2",
     "6 2 8 1 1 1 1 1 1 1 31 2 53 1 15 1 14 2 6 1 19 2 3 1 9 295 1 35390 1 21978 79 17 1 53343",
     "70"]),
   (["gujr", "gujarati"], ["2689 3 1 9 1 3 1 22 1 7 1 2 1 5 2 10 1 3 1 3 2 1 15 4 2 12 7 7"]),
   (["gong", "gunjalagondi"], ["73056 6 1 2 1 37 1 2 1 6 7 10"]),
   (["guru", "gurmukhi"], ["2561 3 1 6 4 2 2 22 1 7 1 2 1 2 1 2 2 1 1 5 4 2 2 3 3 1 7 4 1 1 7 17"]),
   (["gukh", "gurungkhema"], ["90368 58"]),
   (["hani", "han"],
    ["11904 26 1 89 12 214 47 1 1 1 25 9 14 4 964 6592 64 20992 22784 366 2 106 29960 2 12 2",
     "36878 42720 32 4154 6 222 2 5762 14 7473 15 622 2466 542 1506 4939 5 4192"]),
   (["hang", "hangul"],
    ["4352 256 7726 2 257 94 113 31 65 31 30433 29 643 11172 12 23 4 49 10148 31 3 6 2 6 2 6 2",
     "3"]),
   (["rohg", "hanifirohingya"], ["68864 40 8 10"]),
   (["hano", "hanunoo"], ["5920 21"]),
   (["hatr", "hatran"], ["67808 19 1 2 5 5"]),
   (["hebr", "hebrew"], ["1425 55 8 27 4 6 62760 26 1 5 1 1 1 2 1 2 1 10"]),
   (["hira", "hiragana"], ["12353 86 6 3 98145 287 18 1 29 3 16557 1"]),
   (["armi", "imperialaramaic"], ["67648 22 1 9"]),
   (["zinh", "inherited", "qaai"],
    ["768 112 277 2 452 11 26 1 736 4 4443 31 513 3 1 13 1 7 4 1 6 1 3 2 198 64 524 2 194 33",
     "3897 4 107 2 52581 16 16 14 975 1 226 1 4186 1 48068 46 2 23 544 3 17 8 2 7 30 4 798546",
     "240"]),
   (["phli", "inscriptionalpahlavi"], ["68448 19 5 8"]),
   (["prti", "inscriptionalparthian"], ["68416 22 2 8"]),
   (["java", "javanese"], ["43392 78 2 10 4 2"]),
   (["kthi", "kaithi"], ["69760 67 10 1"]),
   (["knda", "kannada"], ["3200 13 1 3 1 23 1 10 1 5 2 9 1 3 1 4 7 2 6 2 1 4 2 10 1 3"]),
   (["kana", "katakana"],
    ["12449 90 2 3 240 16 208 47 1 88 52238 10 1 45 45138 4 1 7 1 2 1 1 287 3 50 1 14 4"]),
   (["kawi"], ["73472 17 1 41 3 29"]),
   (["kali", "kayahli"], ["43264 46 1 1"]),
   (["khar", "kharoshthi"], ["68096 4 1 2 5 8 1 3 1 29 2 3 4 10 7 9"]),
   (["kits", "khitansmallscript"], ["94180 1 6939 470 41 1"]),
   (["khmr", "khmer"], ["6016 94 2 10 6 10 486 32"]),
   (["khoj", "khojki"], ["70144 18 1 47"]),
   (["sind", "khudawadi"], ["70320 59 5 10"]),
   (["krai", "kiratrai"], ["93504 58"]),
   (["laoo", "lao"], ["3713 2 1 1 1 5 1 24 1 1 1 23 2 5 1 1 1 7 1 10 2 4"]),
   (["latn", "latin"],
    ["65 26 6 26 47 1 15 1 5 23 1 31 1 449 39 5 6683 38 6 49 5 4 5 13 1 70 65 256 369 1 13 1 16",
     "13 141 2 6 1 27 1 17 41 2775 32 31394 102 3 67 2 2 1 1 1 8 21 14 816 43 1 9 1 4 20374 7",
     "1050 26 6 26 2085 6 1 42 1 9 55109 31 6 6"]),
   (["lepc", "lepcha"], ["7168 56 3 15 3 3"]),
   (["limb", "limbu"], ["6400 31 1 12 4 12 4 1 3 12"]),
   (["lina", "lineara"], ["67072 311 9 22 10 8"]),
   (["linb", "linearb"], ["65536 12 1 26 1 19 1 2 1 15 2 14 34 123"]),
   (["lisu"], ["42192 48 31408 1"]),
   (["lyci", "lycian"], ["66176 29"]),
   (["lydi", "lydian"], ["67872 26 5 1"]),
   (["mahj", "mahajani"], ["69968 39"]),
   (["maka", "makasar"], ["73440 25"]),
   (["mlym", "malayalam"], ["3328 13 1 3 1 51 1 3 1 6 4 16 2 26"]),
   (["mand", "mandaic"], ["2112 28 2 1"]),
   (["mani", "manichaean"], ["68288 39 4 12"]),
   (["marc", "marchen"], ["72816 32 2 22 1 14"]),
   (["gonm", "masaramgondi"], ["72960 7 1 2 1 44 3 1 1 2 1 9 8 10"]),
   (["medf", "medefaidrin"], ["93760 91"]),
   (["mtei", "meeteimayek"], ["43744 23 201 46 2 10"]),
   (["mend", "mendekikakui"], ["124928 197 2 16"]),
   (["merc", "meroiticcursive"], ["68000 24 4 20 2 46"]),
   (["mero", "meroitichieroglyphs"], ["67968 32"]),
   (["plrd", "miao"], ["93952 75 4 57 7 17"]),
   (["modi"], ["71168 69 11 10"]),
   (["mong", "mongolian"], ["6144 2 2 1 1 20 6 89 7 43 64949 13"]),
   (["mroo", "mro"], ["92736 31 1 10 4 2"]),
   (["mult", "multani"], ["70272 7 1 1 1 4 1 15 1 11"]),
   (["mymr", "myanmar"], ["4096 160 39232 31 97 32 27728 20"]),
   (["nbat", "nabataean"], ["67712 31 8 9"]),
   (["nagm", "nagmundari"], ["124112 42"]),
   (["nand", "nandinagari"], ["72096 8 2 46 2 11"]),
   (["newa"], ["70656 92 1 5"]),
   (["talu", "newtailue"], ["6528 44 4 26 6 11 3 2"]),
   (["nkoo", "nko"], ["1984 59 2 3"]),
   (["nshu", "nushu"], ["94177 1 16782 396"]),
   (["hmnp", "nyiakengpuachuehmong"], ["123136 45 3 14 2 10 4 2"]),
   (["ogam", "ogham"], ["5760 29"]),
   (["olck", "olchiki"], ["7248 48"]),
   (["hung", "oldhungarian"], ["68736 51 13 51 7 6"]),
   (["ital", "olditalic"], ["66304 36 9 3"]),
   (["narb", "oldnortharabian"], ["68224 32"]),
   (["perm", "oldpermic"], ["66384 43"]),
   (["xpeo", "oldpersian"], ["66464 36 4 14"]),
   (["sogo", "oldsogdian"], ["69376 40"]),
   (["sarb", "oldsoutharabian"], ["68192 32"]),
   (["orkh", "oldturkic"], ["68608 73"]),
   (["ougr", "olduyghur"], ["69488 26"]),
   (["onao", "olonal"], ["124368 43 4 1"]),
   (["orya", "oriya"], ["2817 3 1 8 2 2 2 22 1 7 1 2 1 5 2 9 2 2 2 3 7 3 4 2 1 5 2 18"]),
   (["osge", "osage"], ["66736 36 4 36"]),
   (["osma", "osmanya"], ["66688 30 2 10"]),
   (["hmng", "pahawhhmong"], ["92928 70 10 10 1 7 1 21 5 19"]),
   (["palm", "palmyrene"], ["67680 32"]),
   (["pauc", "paucinhau"], ["72384 57"]),
   (["phag", "phagspa"], ["43072 56"]),
   (["phnx", "phoenician"], ["67840 28 3 1"]),
   (["phlp", "psalterpahlavi"], ["68480 18 7 4 12 7"]),
   (["rjng", "rejang"], ["43312 36 11 1"]),
   (["runr", "runic"], ["5792 75 3 11"]),
   (["samr", "samaritan"], ["2048 46 2 15"]),
   (["saur", "saurashtra"], ["43136 70 8 12"]),
   (["shrd", "sharada"], ["70016 96"]),
   (["shaw", "shavian"], ["66640 48"]),
   (["sidd", "siddham"], ["71040 54 2 38"]),
   (["sgnw", "signwriting"], ["120832 652 15 5 1 15"]),
   (["sinh", "sinhala"], ["3457 3 1 18 3 24 1 9 1 1 2 7 3 1 4 6 1 1 1 8 6 10 2 3 66540 20"]),
   (["sogd", "sogdian"], ["69424 42"]),
   (["sora", "sorasompeng"], ["69840 25 7 10"]),
   (["soyo", "soyombo"], ["72272 83"]),
   (["sund", "sundanese"], ["7040 64 256 8"]),
   (["sunu", "sunuwar"], ["72640 34 14 10"]),
   (["sylo", "sylotinagri"], ["43008 45"]),
   (["syrc", "syriac"], ["1792 14 1 60 2 3 272 11"]),
   (["tglg", "tagalog"], ["5888 22 9 1"]),
   (["tagb", "tagbanwa"], ["5984 13 1 3 1 2"]),
   (["tale", "taile"], ["6480 30 2 5"]),
   (["lana", "taitham"], ["6688 63 1 29 2 11 6 10 6 14"]),
   (["tavt", "taiviet"], ["43648 67 24 5"]),
   (["takr", "takri"], ["71296 58 6 10"]),
   (["taml", "tamil"],
    ["2946 2 1 6 3 3 1 4 3 2 1 1 1 2 3 2 3 3 3 12 4 5 3 3 1 4 2 1 6 1 14 21 70597 50 13 1"]),
   (["tnsa", "tangsa"], ["92784 79 1 10"]),
   (["tang", "tangut"], ["94176 1 31 6136 8 768 512 9"]),
   (["telu", "telugu"], ["3072 13 1 3 1 23 1 16 2 9 1 3 1 4 7 2 1 3 2 1 2 4 2 10 7 9"]),
   (["thaa", "thaana"], ["1920 50"]),
   (["thai"], ["3585 58 5 28"]),
   (["tibt", "tibetan"], ["3840 72 1 36 4 39 1 36 1 15 1 7 4 2"]),
   (["tfng", "tifinagh"], ["11568 56 7 2 14 1"]),
   (["tirh", "tirhuta"], ["70784 72 8 10"]),
   (["todr", "todhri"], ["67008 52"]),
   (["toto"], ["123536 31"]),
   (["tutg", "tulutigalari"], ["70528 10 1 1 2 1 1 38 1 10 1 1 2 1 1 4 1 10 1 2 8 2"]),
   (["ugar", "ugaritic"], ["66432 30 1 1"]),
   (["vaii", "vai"], ["42240 300"]),
   (["vith", "vithkuqi"], ["66928 11 1 15 1 7 1 2 1 11 1 15 1 7 1 2"]),
   (["wcho", "wancho"], ["123584 58 5 1"]),
   (["wara", "warangciti"], ["71840 83 12 1"]),
   (["yezi", "yezidi"], ["69248 42 1 3 2 2"]),
   (["yiii", "yi"], ["40960 1165 3 55"]),
   (["zanb", "zanabazarsquare"], ["72192 72"])]

/-- The code points of the script of a name, which is in lower case and without separators. -/
def ranges? (name : String) : Option (List (Nat × Nat)) := rangesNamed? table name

end Script

end Unicode

/-! ## Scripts that share code points

Some code points serve several scripts, or other scripts than the one they are assigned to.  All
other code points serve their own script alone.
-/

namespace Unicode

namespace ScriptExtension

/-- Groups of code points that several scripts share or that one script uses although they are not
its own: the short names of the scripts, and the code points. -/
def table : List (List String × List String) :=
  [(["avst", "cari", "copt", "dupl", "elba", "geor", "glag", "gong", "goth", "grek", "hani", "latn",
     "lydi", "mahj", "perm", "shaw"],
    ["183 1"]),
   (["beng", "cyrl", "deva", "latn", "lisu", "thai", "toto"], ["700 1"]),
   (["bopo", "latn"], ["711 1 1 3 13 1"]),
   (["latn", "lisu"], ["717 1"]),
   (["latn", "thai"], ["727 1"]),
   (["cher", "copt", "cyrl", "grek", "latn", "perm", "sunu", "tale"], ["768 1"]),
   (["cher", "cyrl", "grek", "latn", "osge", "sunu", "tale", "todr"], ["769 1"]),
   (["cher", "cyrl", "latn", "tfng"], ["770 1"]),
   (["glag", "latn", "sunu", "syrc", "thai"], ["771 1"]),
   (["aghb", "cher", "copt", "cyrl", "goth", "grek", "latn", "osge", "syrc", "tfng", "todr"],
    ["772 1"]),
   (["copt", "elba", "glag", "goth", "kana", "latn"], ["773 1"]),
   (["cyrl", "grek", "latn", "perm"], ["774 1"]),
   (["copt", "dupl", "hebr", "latn", "perm", "syrc", "tale", "tfng", "todr"], ["775 1"]),
   (["armn", "cyrl", "dupl", "goth", "grek", "hebr", "latn", "perm", "syrc", "tale"], ["776 1"]),
   (["latn", "tfng"], ["777 1"]),
   (["dupl", "latn", "syrc"], ["778 1"]),
   (["cher", "cyrl", "latn", "osge"], ["779 1"]),
   (["cher", "latn", "tale"], ["780 1"]),
   (["latn", "sunu"], ["781 1 2 1"]),
   (["ethi", "latn"], ["782 1"]),
   (["cyrl", "latn", "todr"], ["785 1"]),
   (["grek", "latn", "perm", "todr"], ["787 1"]),
   (["latn", "syrc"], ["800 1 4 1 8 1"]),
   (["cher", "dupl", "kana", "latn", "syrc"], ["803 1"]),
   (["cher", "dupl", "latn", "syrc"], ["804 1"]),
   (["latn", "sunu", "syrc"], ["813 1"]),
   (["cher", "latn", "syrc"], ["816 1"]),
   (["aghb", "cher", "goth", "latn", "sunu", "thai"], ["817 1"]),
   (["grek"], ["834 1 2 1 6778 2"]),
   (["latn", "osge"], ["856 1"]),
   (["aghb", "latn", "todr"], ["862 1"]),
   (["latn"], ["867 13"]),
   (["copt", "grek"], ["884 2"]),
   (["cyrl", "perm"], ["1155 1"]),
   (["cyrl", "glag"], ["1156 1 2 1 10683 1 30763 1"]),
   (["cyrl", "latn"], ["1157 2"]),
   (["armn", "geor", "glag"], ["1417 1"]),
   (["arab", "gara", "nkoo", "rohg", "syrc", "thaa", "yezi"], ["1548 1 14 1"]),
   (["arab", "syrc", "thaa"], ["1564 1"]),
   (["adlm", "arab", "gara", "nkoo", "rohg", "syrc", "thaa", "yezi"], ["1567 1"]),
   (["adlm", "arab", "mand", "mani", "ougr", "phlp", "rohg", "sogd", "syrc"], ["1600 1"]),
   (["arab", "syrc"], ["1611 11 26 1"]),
   (["arab", "thaa", "yezi"], ["1632 10"]),
   (["arab", "rohg"], ["1748 1"]),
   (["beng", "deva", "gran", "gujr", "guru", "knda", "latn", "mlym", "orya", "shrd", "taml", "telu",
     "tirh"],
    ["2385 1"]),
   (["beng", "deva", "gran", "gujr", "guru", "knda", "latn", "mlym", "orya", "taml", "telu",
     "tirh"],
    ["2386 1"]),
   (["beng", "deva", "dogr", "gong", "gonm", "gran", "gujr", "guru", "knda", "mahj", "mlym", "nand",
     "onao", "orya", "sind", "sinh", "sylo", "takr", "taml", "telu", "tirh"],
    ["2404 1"]),
   (["beng", "deva", "dogr", "gong", "gonm", "gran", "gujr", "gukh", "guru", "knda", "limb", "mahj",
     "mlym", "nand", "onao", "orya", "sind", "sinh", "sylo", "takr", "taml", "telu", "tirh"],
    ["2405 1"]),
   (["deva", "dogr", "kthi", "mahj"], ["2406 10"]),
   (["beng", "cakm", "sylo"], ["2534 10"]),
   (["guru", "mult"], ["2662 10"]),
   (["gujr", "khoj"], ["2790 10"]),
   (["gran", "taml"], ["3046 14 67341 1 1 1 55 2 3219 2 1 1"]),
   (["knda", "nand", "tutg"], ["3302 10"]),
   (["cakm", "mymr", "tale"], ["4160 10"]),
   (["geor", "glag", "latn"], ["4347 1"]),
   (["runr"], ["5867 3"]),
   (["buhd", "hano", "tagb", "tglg"], ["5941 2"]),
   (["mong", "phag"], ["6146 2 1 1"]),
   (["beng", "deva", "gran", "knda"], ["7376 1 1 1"]),
   (["deva"], ["7377 1 2 1 6 1 2 2 2 7 2 2 1 4"]),
   (["deva", "gran", "knda"], ["7379 1"]),
   (["beng", "deva"], ["7381 2 1 1 8 1 8 1 2 1 7 2"]),
   (["deva", "shrd"], ["7383 1 1 1 2 2 2 1"]),
   (["deva", "knda", "mlym", "orya", "taml", "telu"], ["7386 1"]),
   (["deva", "nand"], ["7401 1"]),
   (["beng", "deva", "gran", "knda", "mlym", "nand", "orya", "sinh", "telu", "tirh", "tutg"],
    ["7410 1"]),
   (["deva", "gran"], ["7411 1 4 2"]),
   (["deva", "gran", "knda", "tutg"], ["7412 1"]),
   (["beng"], ["7415 1"]),
   (["nand"], ["7418 1"]),
   (["cyrl", "latn", "syrc"], ["7672 1"]),
   (["syrc"], ["7674 1"]),
   (["latn", "mong", "phag"], ["8239 1"]),
   (["adlm", "arab"], ["8271 1"]),
   (["cari", "geor", "glag", "hung", "lyci", "orkh"], ["8282 1"]),
   (["cari", "grek", "hung", "mero"], ["8285 1"]),
   (["deva", "gran", "latn"], ["8432 1"]),
   (["copt", "latn"], ["11799 1"]),
   (["avst", "orkh"], ["11824 1"]),
   (["avst", "cari", "geor", "hung", "kthi", "lydi", "samr"], ["11825 1"]),
   (["dupl"], ["11836 1 101987 4"]),
   (["adlm", "arab", "hung"], ["11841 1"]),
   (["hani", "tang"], ["12272 16 495 1"]),
   (["bopo", "hang", "hani", "hira", "kana", "mong", "yiii"], ["12289 1"]),
   (["bopo", "hang", "hani", "hira", "kana", "mong", "phag", "yiii"], ["12290 1"]),
   (["bopo", "hang", "hani", "hira", "kana"], ["12291 1 15 1 8 4 16 1 6 1 52749 2"]),
   (["hani"],
    ["12294 1 55 2 336 16 32 38 58 40 56 49 15 12 51 1 88 25 10 5 96 31 106337 18 7902 2"]),
   (["bopo", "hang", "hani", "hira", "kana", "mong", "tibt", "yiii"], ["12296 2"]),
   (["bopo", "hang", "hani", "hira", "kana", "lisu", "mong", "tibt", "yiii"], ["12298 2"]),
   (["bopo", "hang", "hani", "hira", "kana", "yiii"], ["12300 6 2 8 223 1 52837 5"]),
   (["bopo", "hani"], ["12330 4"]),
   (["hira", "kana"], ["12337 5 99 4 3 1 91 1 52851 1 45 2"]),
   (["hani", "hira", "kana"], ["12348 2"]),
   (["hani", "latn"], ["42752 8"]),
   (["deva", "dogr", "gujr", "guru", "khoj", "knda", "kthi", "mahj", "mlym", "modi", "nand", "shrd",
     "sind", "takr", "tirh", "tutg"],
    ["43056 3"]),
   (["deva", "dogr", "gujr", "guru", "khoj", "knda", "kthi", "mahj", "modi", "nand", "shrd", "sind",
     "takr", "tirh", "tutg"],
    ["43059 3"]),
   (["deva", "dogr", "gujr", "guru", "khoj", "kthi", "mahj", "modi", "sind", "takr", "tirh"],
    ["43062 2 1 1"]),
   (["deva", "dogr", "gujr", "guru", "khoj", "kthi", "mahj", "modi", "shrd", "sind", "takr",
     "tirh"],
    ["43064 1"]),
   (["beng", "deva", "tutg"], ["43249 1"]),
   (["deva", "taml"], ["43251 1"]),
   (["kali", "latn", "mymr"], ["43310 1"]),
   (["bugi", "java"], ["43471 1"]),
   (["arab", "nkoo"], ["64830 2"]),
   (["arab", "thaa"], ["65010 1 10 1"]),
   (["cpmn", "cprt", "linb"], ["65792 2"]),
   (["cprt", "linb"], ["65794 1 52 9"]),
   (["cprt", "lina", "linb"], ["65799 45"]),
   (["arab", "copt"], ["66272 28"]),
   (["mani", "ougr"], ["68338 1"])]

/-- The code points of all groups. -/
def sharedRanges : List (Nat × Nat) := table.flatMap fun group => rangesOf group.2

/-- The code points of the groups that belong to the script of a short name. -/
def rangesSharedBy (script : String) : List (Nat × Nat) :=
  (table.filter fun group => group.1.contains script).flatMap fun group => rangesOf group.2

/-- The short name of the script of a name, which is in lower case and without separators. -/
def shortName? (name : String) : Option String :=
  (Script.table.find? fun entry => entry.1.contains name).bind fun entry => entry.1.head?

end ScriptExtension

end Unicode

end IncrementalGlr
