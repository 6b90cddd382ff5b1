import CloudAudit.Text.Run

/-!
Scripts of characters, as the Unicode character database assigns them.
-/

namespace CloudAudit.Text

/-- Runs of scripts, four letters each; `Zzzz` stands for none. -/
def scriptRuns : List String :=
  ["Zyyy65Latn26Zyyy6Latn26Zyyy47LatnZyyy15LatnZyyy5Latn23ZyyyLatn31ZyyyLatn449Zyyy39Latn5Zyyy5",
    "Bopo2Zyyy20Zinh112Grek4ZyyyGrek3Zzzz2Grek4ZyyyGrekZzzz4GrekZyyyGrekZyyyGrek3ZzzzGrekZzzzGrek20",
    "ZzzzGrek63Copt14Grek16Cyrl133Zinh2Cyrl169ZzzzArmn38Zzzz2Armn50Zzzz2Armn3ZzzzHebr55Zzzz8Hebr27",
    "Zzzz4Hebr6Zzzz11Arab5ZyyyArab6ZyyyArab14ZyyyArab3ZyyyArab32ZyyyArab10Zinh11Arab26ZinhArab108",
    "ZyyyArab34Syrc14ZzzzSyrc60Zzzz2Syrc3Arab48Thaa50Zzzz14Nkoo59Zzzz2Nkoo3Samr46Zzzz2Samr15Zzzz",
    "Mand28Zzzz2MandZzzzSyrc11Zzzz5Arab31ZzzzArab2Zzzz6Arab74ZyyyArab29Deva81Zinh4Deva15Zyyy2Deva26",
    "Beng4ZzzzBeng8Zzzz2Beng2Zzzz2Beng22ZzzzBeng7ZzzzBengZzzz3Beng4Zzzz2Beng9Zzzz2Beng2Zzzz2Beng4",
    "Zzzz8BengZzzz4Beng2ZzzzBeng5Zzzz2Beng25Zzzz2Guru3ZzzzGuru6Zzzz4Guru2Zzzz2Guru22ZzzzGuru7Zzzz",
    "Guru2ZzzzGuru2ZzzzGuru2Zzzz2GuruZzzzGuru5Zzzz4Guru2Zzzz2Guru3Zzzz3GuruZzzz7Guru4ZzzzGuruZzzz7",
    "Guru17Zzzz10Gujr3ZzzzGujr9ZzzzGujr3ZzzzGujr22ZzzzGujr7ZzzzGujr2ZzzzGujr5Zzzz2Gujr10ZzzzGujr3",
    "ZzzzGujr3Zzzz2GujrZzzz15Gujr4Zzzz2Gujr12Zzzz7Gujr7ZzzzOrya3ZzzzOrya8Zzzz2Orya2Zzzz2Orya22Zzzz",
    "Orya7ZzzzOrya2ZzzzOrya5Zzzz2Orya9Zzzz2Orya2Zzzz2Orya3Zzzz7Orya3Zzzz4Orya2ZzzzOrya5Zzzz2Orya18",
    "Zzzz10Taml2ZzzzTaml6Zzzz3Taml3ZzzzTaml4Zzzz3Taml2ZzzzTamlZzzzTaml2Zzzz3Taml2Zzzz3Taml3Zzzz3",
    "Taml12Zzzz4Taml5Zzzz3Taml3ZzzzTaml4Zzzz2TamlZzzz6TamlZzzz14Taml21Zzzz5Telu13ZzzzTelu3Zzzz",
    "Telu23ZzzzTelu16Zzzz2Telu9ZzzzTelu3ZzzzTelu4Zzzz7Telu2ZzzzTelu3Zzzz2TeluZzzz2Telu4Zzzz2Telu10",
    "Zzzz7Telu9Knda13ZzzzKnda3ZzzzKnda23ZzzzKnda10ZzzzKnda5Zzzz2Knda9ZzzzKnda3ZzzzKnda4Zzzz7Knda2",
    "Zzzz6Knda2ZzzzKnda4Zzzz2Knda10ZzzzKnda3Zzzz12Mlym13ZzzzMlym3ZzzzMlym51ZzzzMlym3ZzzzMlym6Zzzz4",
    "Mlym16Zzzz2Mlym26ZzzzSinh3ZzzzSinh18Zzzz3Sinh24ZzzzSinh9ZzzzSinhZzzz2Sinh7Zzzz3SinhZzzz4Sinh6",
    "ZzzzSinhZzzzSinh8Zzzz6Sinh10Zzzz2Sinh3Zzzz12Thai58Zzzz4ZyyyThai28Zzzz37Laoo2ZzzzLaooZzzzLaoo5",
    "ZzzzLaoo24ZzzzLaooZzzzLaoo23Zzzz2Laoo5ZzzzLaooZzzzLaoo7ZzzzLaoo10Zzzz2Laoo4Zzzz32Tibt72Zzzz",
    "Tibt36Zzzz4Tibt39ZzzzTibt36ZzzzTibt15ZzzzTibt7Zyyy4Tibt2Zzzz37Mymr160Geor38ZzzzGeorZzzz5Geor",
    "Zzzz2Geor43ZyyyGeor4Hang256Ethi73ZzzzEthi4Zzzz2Ethi7ZzzzEthiZzzzEthi4Zzzz2Ethi41ZzzzEthi4Zzzz2",
    "Ethi33ZzzzEthi4Zzzz2Ethi7ZzzzEthiZzzzEthi4Zzzz2Ethi15ZzzzEthi57ZzzzEthi4Zzzz2Ethi67Zzzz2Ethi32",
    "Zzzz3Ethi26Zzzz6Cher86Zzzz2Cher6Zzzz2Cans640Ogam29Zzzz3Runr75Zyyy3Runr11Zzzz7Tglg22Zzzz9Tglg",
    "Hano21Zyyy2Zzzz9Buhd20Zzzz12Tagb13ZzzzTagb3ZzzzTagb2Zzzz12Khmr94Zzzz2Khmr10Zzzz6Khmr10Zzzz6",
    "Mong2Zyyy2MongZyyyMong20Zzzz6Mong89Zzzz7Mong43Zzzz5Cans70Zzzz10Limb31ZzzzLimb12Zzzz4Limb12",
    "Zzzz4LimbZzzz3Limb12Tale30Zzzz2Tale5Zzzz11Talu44Zzzz4Talu26Zzzz6Talu11Zzzz3Talu2Khmr32Bugi28",
    "Zzzz2Bugi2Lana63ZzzzLana29Zzzz2Lana11Zzzz6Lana10Zzzz6Lana14Zzzz2Zinh31Zzzz49Bali77Zzzz3Bali47",
    "ZzzzSund64Batk52Zzzz8Batk4Lepc56Zzzz3Lepc15Zzzz3Lepc3Olck48Cyrl9Zzzz7Geor43Zzzz2Geor3Sund8",
    "Zzzz8Zinh3ZyyyZinh13ZyyyZinh7Zyyy4ZinhZyyy6ZinhZyyy3Zinh2ZyyyZzzz5Latn38Grek5CyrlLatn49Grek5",
    "Latn4Grek5Latn13CyrlLatn70GrekZinh64Latn256Grek22Zzzz2Grek6Zzzz2Grek38Zzzz2Grek6Zzzz2Grek8Zzzz",
    "GrekZzzzGrekZzzzGrekZzzzGrek31Zzzz2Grek53ZzzzGrek15ZzzzGrek14Zzzz2Grek6ZzzzGrek19Zzzz2Grek3",
    "ZzzzGrek9ZzzzZyyy12Zinh2Zyyy87ZzzzZyyy11LatnZzzz2Zyyy11LatnZyyy15ZzzzLatn13Zzzz3Zyyy33Zzzz15",
    "Zinh33Zzzz15Zyyy38GrekZyyy3Latn2Zyyy6LatnZyyy27LatnZyyy17Latn41Zyyy3Zzzz4Zyyy663Zzzz25Zyyy11",
    "Zzzz21Zyyy928Brai256Zyyy628Zzzz2Zyyy32ZzzzZyyy105Glag96Latn32Copt116Zzzz5Copt7Geor38ZzzzGeor",
    "Zzzz5GeorZzzz2Tfng56Zzzz7Tfng2Zzzz14TfngEthi23Zzzz9Ethi7ZzzzEthi7ZzzzEthi7ZzzzEthi7ZzzzEthi7",
    "ZzzzEthi7ZzzzEthi7ZzzzEthi7ZzzzCyrl32Zyyy94Zzzz34Hani26ZzzzHani89Zzzz12Hani214Zzzz26Zyyy12",
    "Zzzz4Zyyy5HaniZyyyHaniZyyy25Hani9Zinh4Hang2Zyyy8Hani4Zyyy4ZzzzHira86Zzzz2Zinh2Zyyy2Hira3Zyyy",
    "Kana90Zyyy2Kana3Zzzz5Bopo43ZzzzHang94ZzzzZyyy16Bopo32Zyyy36Zzzz12Kana16Hang31ZzzzZyyy64Hang31",
    "Zyyy81Kana47ZyyyKana88Zyyy168Hani6592Zyyy64Hani20992Yiii1165Zzzz3Yiii55Zzzz9Lisu48Vaii300",
    "Zzzz20Cyrl96Bamu88Zzzz8Zyyy34Latn102Zyyy3Latn64Zzzz5Latn2ZzzzLatnZzzzLatn5Zzzz24Latn14Sylo45",
    "Zzzz3Zyyy10Zzzz6Phag56Zzzz8Saur70Zzzz8Saur12Zzzz6Deva32Kali46ZyyyKaliRjng36Zzzz11RjngHang29",
    "Zzzz3Java78ZzzzZyyyJava10Zzzz4Java2Mymr31ZzzzCham55Zzzz9Cham14Zzzz2Cham10Zzzz2Cham4Mymr32",
    "Tavt67Zzzz24Tavt5Mtei23Zzzz10Ethi6Zzzz2Ethi6Zzzz2Ethi6Zzzz9Ethi7ZzzzEthi7ZzzzLatn43ZyyyLatn9",
    "GrekLatn4Zyyy2Zzzz4Cher80Mtei46Zzzz2Mtei10Zzzz6Hang11172Zzzz12Hang23Zzzz4Hang49Zzzz8452Hani366",
    "Zzzz2Hani106Zzzz38Latn7Zzzz12Armn5Zzzz5Hebr26ZzzzHebr5ZzzzHebrZzzzHebr2ZzzzHebr2ZzzzHebr10",
    "Arab115Zzzz16Arab363Zyyy2Arab80Zzzz2Arab54Zzzz7ArabZzzz32Arab16Zinh16Zyyy10Zzzz6Zinh14Cyrl2",
    "Zyyy35ZzzzZyyy19ZzzzZyyy4Zzzz4Arab5ZzzzArab135Zzzz2ZyyyZzzzZyyy32Latn26Zyyy6Latn26Zyyy11Kana10",
    "ZyyyKana45Zyyy2Hang31Zzzz3Hang6Zzzz2Hang6Zzzz2Hang6Zzzz2Hang3Zzzz3Zyyy7ZzzzZyyy7Zzzz10Zyyy5",
    "Zzzz2Linb12ZzzzLinb26ZzzzLinb19ZzzzLinb2ZzzzLinb15Zzzz2Linb14Zzzz34Linb123Zzzz5Zyyy3Zzzz4",
    "Zyyy45Zzzz3Zyyy9Grek79ZzzzZyyy13Zzzz3GrekZzzz47Zyyy45ZinhZzzz130Lyci29Zzzz3Cari49Zzzz15Zinh",
    "Zyyy27Zzzz4Ital36Zzzz9Ital3Goth27Zzzz5Perm43Zzzz5Ugar30ZzzzUgarXpeo36Zzzz4Xpeo14Zzzz42Dsrt80",
    "Shaw48Osma30Zzzz2Osma10Zzzz6Osge36Zzzz4Osge36Zzzz4Elba40Zzzz8Aghb52Zzzz11AghbVith11ZzzzVith15",
    "ZzzzVith7ZzzzVith2ZzzzVith11ZzzzVith15ZzzzVith7ZzzzVith2Zzzz67Lina311Zzzz9Lina22Zzzz10Lina8",
    "Zzzz24Latn6ZzzzLatn42ZzzzLatn9Zzzz69Cprt6Zzzz2CprtZzzzCprt44ZzzzCprt2Zzzz3CprtZzzz2CprtArmi22",
    "ZzzzArmi9Palm32Nbat31Zzzz8Nbat9Zzzz48Hatr19ZzzzHatr2Zzzz5Hatr5Phnx28Zzzz3PhnxLydi26Zzzz5Lydi",
    "Zzzz64Mero32Merc24Zzzz4Merc20Zzzz2Merc46Khar4ZzzzKhar2Zzzz5Khar8ZzzzKhar3ZzzzKhar29Zzzz2Khar3",
    "Zzzz4Khar10Zzzz7Khar9Zzzz7Sarb32Narb32Zzzz32Mani39Zzzz4Mani12Zzzz9Avst54Zzzz3Avst7Prti22Zzzz2",
    "Prti8Phli19Zzzz5Phli8Phlp18Zzzz7Phlp4Zzzz12Phlp7Zzzz80Orkh73Zzzz55Hung51Zzzz13Hung51Zzzz7Hung6",
    "Rohg40Zzzz8Rohg10Zzzz294Arab31ZzzzYezi42ZzzzYezi3Zzzz2Yezi2Zzzz75Arab3Sogo40Zzzz8Sogd42Zzzz22",
    "Ougr26Zzzz38Chrs28Zzzz20Elym23Zzzz9Brah78Zzzz4Brah36Zzzz9BrahKthi67Zzzz10KthiZzzz2Sora25Zzzz7",
    "Sora10Zzzz6Cakm53ZzzzCakm18Zzzz8Mahj39Zzzz9Shrd96ZzzzSinh20Zzzz11Khoj18ZzzzKhoj47Zzzz62Mult7",
    "ZzzzMultZzzzMult4ZzzzMult15ZzzzMult11Zzzz6Sind59Zzzz5Sind10Zzzz6Gran4ZzzzGran8Zzzz2Gran2Zzzz2",
    "Gran22ZzzzGran7ZzzzGran2ZzzzGran5ZzzzZinhGran9Zzzz2Gran2Zzzz2Gran3Zzzz2GranZzzz6GranZzzz5Gran7",
    "Zzzz2Gran7Zzzz3Gran5Zzzz139Newa92ZzzzNewa5Zzzz30Tirh72Zzzz8Tirh10Zzzz166Sidd54Zzzz2Sidd38",
    "Zzzz34Modi69Zzzz11Modi10Zzzz6Mong13Zzzz19Takr58Zzzz6Takr10Zzzz54Ahom27Zzzz2Ahom15Zzzz4Ahom23",
    "Zzzz185Dogr60Zzzz100Wara83Zzzz12WaraDiak7Zzzz2DiakZzzz2Diak8ZzzzDiak2ZzzzDiak30ZzzzDiak2Zzzz2",
    "Diak12Zzzz9Diak10Zzzz70Nand8Zzzz2Nand46Zzzz2Nand11Zzzz27Zanb72Zzzz8Soyo83Zzzz13Cans16Pauc57",
    "Zzzz7Deva10Zzzz246Bhks9ZzzzBhks45ZzzzBhks14Zzzz10Bhks29Zzzz3Marc32Zzzz2Marc22ZzzzMarc14Zzzz73",
    "Gonm7ZzzzGonm2ZzzzGonm44Zzzz3GonmZzzzGonm2ZzzzGonm9Zzzz8Gonm10Zzzz6Gong6ZzzzGong2ZzzzGong37",
    "ZzzzGong2ZzzzGong6Zzzz7Gong10Zzzz310Maka25Zzzz7Kawi17ZzzzKawi41Zzzz3Kawi28Zzzz86LisuZzzz15",
    "Taml50Zzzz13TamlXsux922Zzzz102Xsux111ZzzzXsux5Zzzz11Xsux196Zzzz2636Cpmn99Zzzz13Egyp1110",
    "Zzzz4010Hluw583Zzzz8633Bamu569Zzzz7Mroo31ZzzzMroo10Zzzz4Mroo2Tnsa79ZzzzTnsa10Zzzz6Bass30Zzzz2",
    "Bass6Zzzz10Hmng70Zzzz10Hmng10ZzzzHmng7ZzzzHmng21Zzzz5Hmng19Zzzz688Medf91Zzzz101Plrd75Zzzz4",
    "Plrd57Zzzz7Plrd17Zzzz64TangNshuHani2KitsZzzz11Hani2Zzzz14Tang6136Zzzz8Tang768Kits470Zzzz42",
    "Tang9Zzzz8935Kana4ZzzzKana7ZzzzKana2ZzzzKanaHira287Kana3Zzzz15HiraZzzz29Hira3Zzzz2KanaZzzz14",
    "Kana4Zzzz8Nshu396Zzzz2308Dupl107Zzzz5Dupl13Zzzz3Dupl9Zzzz7Dupl10Zzzz2Dupl4Zyyy4Zzzz4700Zinh46",
    "Zzzz2Zinh23Zzzz9Zyyy116Zzzz60Zyyy246Zzzz10Zyyy39Zzzz2Zyyy62Zinh3Zyyy17Zinh8Zyyy2Zinh7Zyyy30",
    "Zinh4Zyyy61Zzzz21Grek70Zzzz122Zyyy20Zzzz12Zyyy20Zzzz12Zyyy87Zzzz9Zyyy25Zzzz135Zyyy85ZzzzZyyy71",
    "ZzzzZyyy2Zzzz2ZyyyZzzz2Zyyy2Zzzz2Zyyy4ZzzzZyyy12ZzzzZyyyZzzzZyyy7ZzzzZyyy65ZzzzZyyy4Zzzz2Zyyy8",
    "ZzzzZyyy7ZzzzZyyy28ZzzzZyyy4ZzzzZyyy5ZzzzZyyyZzzz3Zyyy7ZzzzZyyy340Zzzz2Zyyy292Zzzz2Zyyy50",
    "Sgnw652Zzzz15Sgnw5ZzzzSgnw15Zzzz1104Latn31Zzzz6Latn6Zzzz213Glag7ZzzzGlag17Zzzz2Glag7ZzzzGlag2",
    "ZzzzGlag5Zzzz5Cyrl62Zzzz33CyrlZzzz112Hmnp45Zzzz3Hmnp14Zzzz2Hmnp10Zzzz4Hmnp2Zzzz320Toto31Zzzz17",
    "Wcho58Zzzz5WchoZzzz464Nagm42Zzzz742Ethi7ZzzzEthi4ZzzzEthi2ZzzzEthi15ZzzzMend197Zzzz2Mend16",
    "Zzzz41Adlm76Zzzz4Adlm10Zzzz4Adlm2Zzzz785Zyyy68Zzzz76Zyyy61Zzzz194Arab4ZzzzArab27ZzzzArab2Zzzz",
    "ArabZzzz2ArabZzzzArab10ZzzzArab4ZzzzArabZzzzArabZzzz6ArabZzzz4ArabZzzzArabZzzzArabZzzzArab3",
    "ZzzzArab2ZzzzArabZzzz2ArabZzzzArabZzzzArabZzzzArabZzzzArabZzzzArab2ZzzzArabZzzz2Arab4ZzzzArab7",
    "ZzzzArab4ZzzzArab4ZzzzArabZzzzArab10ZzzzArab17Zzzz5Arab3ZzzzArab5ZzzzArab17Zzzz52Arab2Zzzz270",
    "Zyyy44Zzzz4Zyyy100Zzzz12Zyyy15Zzzz2Zyyy15ZzzzZyyy15ZzzzZyyy37Zzzz10Zyyy174Zzzz56Zyyy26Hira",
    "Zyyy2Zzzz13Zyyy44Zzzz4Zyyy9Zzzz7Zyyy2Zzzz14Zyyy6Zzzz154Zyyy984Zzzz4Zyyy17Zzzz3Zyyy13Zzzz3",
    "Zyyy119Zzzz4Zyyy95Zzzz6Zyyy12Zzzz4ZyyyZzzz15Zyyy12Zzzz4Zyyy56Zzzz8Zyyy10Zzzz6Zyyy40Zzzz8Zyyy30",
    "Zzzz2Zyyy2Zzzz78Zyyy340Zzzz12Zyyy14Zzzz2Zyyy13Zzzz3Zyyy9Zzzz7Zyyy46ZzzzZyyy7Zzzz8Zyyy14Zzzz4",
    "Zyyy9Zzzz7Zyyy9Zzzz7Zyyy147ZzzzZyyy55Zzzz37Zyyy10Zzzz1030Hani42720Zzzz32Hani4154Zzzz6Hani222",
    "Zzzz2Hani5762Zzzz14Hani7473Zzzz3103Hani542Zzzz1506Hani4939Zzzz5Hani4192Zzzz711761ZyyyZzzz30",
    "Zyyy96Zzzz128Zinh240Zzzz196112"]

/-- Names of scripts in small letters, with the four letters each stands for. -/
def scriptNames : List (String × String) :=
  [("zyyy", "Zyyy"), ("common", "Zyyy"), ("latn", "Latn"), ("latin", "Latn"), ("bopo", "Bopo"),
    ("bopomofo", "Bopo"), ("zinh", "Zinh"), ("inherited", "Zinh"), ("qaai", "Zinh"),
    ("grek", "Grek"), ("greek", "Grek"), ("copt", "Copt"), ("coptic", "Copt"), ("qaac", "Copt"),
    ("cyrl", "Cyrl"), ("cyrillic", "Cyrl"), ("armn", "Armn"), ("armenian", "Armn"),
    ("hebr", "Hebr"), ("hebrew", "Hebr"), ("arab", "Arab"), ("arabic", "Arab"), ("syrc", "Syrc"),
    ("syriac", "Syrc"), ("thaa", "Thaa"), ("thaana", "Thaa"), ("nkoo", "Nkoo"), ("nko", "Nkoo"),
    ("samr", "Samr"), ("samaritan", "Samr"), ("mand", "Mand"), ("mandaic", "Mand"),
    ("deva", "Deva"), ("devanagari", "Deva"), ("beng", "Beng"), ("bengali", "Beng"),
    ("guru", "Guru"), ("gurmukhi", "Guru"), ("gujr", "Gujr"), ("gujarati", "Gujr"),
    ("orya", "Orya"), ("oriya", "Orya"), ("taml", "Taml"), ("tamil", "Taml"), ("telu", "Telu"),
    ("telugu", "Telu"), ("knda", "Knda"), ("kannada", "Knda"), ("mlym", "Mlym"),
    ("malayalam", "Mlym"), ("sinh", "Sinh"), ("sinhala", "Sinh"), ("thai", "Thai"),
    ("laoo", "Laoo"), ("lao", "Laoo"), ("tibt", "Tibt"), ("tibetan", "Tibt"), ("mymr", "Mymr"),
    ("myanmar", "Mymr"), ("geor", "Geor"), ("georgian", "Geor"), ("hang", "Hang"),
    ("hangul", "Hang"), ("ethi", "Ethi"), ("ethiopic", "Ethi"), ("cher", "Cher"),
    ("cherokee", "Cher"), ("cans", "Cans"), ("canadianaboriginal", "Cans"), ("ogam", "Ogam"),
    ("ogham", "Ogam"), ("runr", "Runr"), ("runic", "Runr"), ("tglg", "Tglg"),
    ("tagalog", "Tglg"), ("hano", "Hano"), ("hanunoo", "Hano"), ("buhd", "Buhd"),
    ("buhid", "Buhd"), ("tagb", "Tagb"), ("tagbanwa", "Tagb"), ("khmr", "Khmr"),
    ("khmer", "Khmr"), ("mong", "Mong"), ("mongolian", "Mong"), ("limb", "Limb"),
    ("limbu", "Limb"), ("tale", "Tale"), ("taile", "Tale"), ("talu", "Talu"),
    ("newtailue", "Talu"), ("bugi", "Bugi"), ("buginese", "Bugi"), ("lana", "Lana"),
    ("taitham", "Lana"), ("bali", "Bali"), ("balinese", "Bali"), ("sund", "Sund"),
    ("sundanese", "Sund"), ("batk", "Batk"), ("batak", "Batk"), ("lepc", "Lepc"),
    ("lepcha", "Lepc"), ("olck", "Olck"), ("olchiki", "Olck"), ("brai", "Brai"),
    ("braille", "Brai"), ("glag", "Glag"), ("glagolitic", "Glag"), ("tfng", "Tfng"),
    ("tifinagh", "Tfng"), ("hani", "Hani"), ("han", "Hani"), ("hira", "Hira"),
    ("hiragana", "Hira"), ("kana", "Kana"), ("katakana", "Kana"), ("yiii", "Yiii"),
    ("yi", "Yiii"), ("lisu", "Lisu"), ("vaii", "Vaii"), ("vai", "Vaii"), ("bamu", "Bamu"),
    ("bamum", "Bamu"), ("sylo", "Sylo"), ("sylotinagri", "Sylo"), ("phag", "Phag"),
    ("phagspa", "Phag"), ("saur", "Saur"), ("saurashtra", "Saur"), ("kali", "Kali"),
    ("kayahli", "Kali"), ("rjng", "Rjng"), ("rejang", "Rjng"), ("java", "Java"),
    ("javanese", "Java"), ("cham", "Cham"), ("tavt", "Tavt"), ("taiviet", "Tavt"),
    ("mtei", "Mtei"), ("meeteimayek", "Mtei"), ("linb", "Linb"), ("linearb", "Linb"),
    ("lyci", "Lyci"), ("lycian", "Lyci"), ("cari", "Cari"), ("carian", "Cari"), ("ital", "Ital"),
    ("olditalic", "Ital"), ("goth", "Goth"), ("gothic", "Goth"), ("perm", "Perm"),
    ("oldpermic", "Perm"), ("ugar", "Ugar"), ("ugaritic", "Ugar"), ("xpeo", "Xpeo"),
    ("oldpersian", "Xpeo"), ("dsrt", "Dsrt"), ("deseret", "Dsrt"), ("shaw", "Shaw"),
    ("shavian", "Shaw"), ("osma", "Osma"), ("osmanya", "Osma"), ("osge", "Osge"),
    ("osage", "Osge"), ("elba", "Elba"), ("elbasan", "Elba"), ("aghb", "Aghb"),
    ("caucasianalbanian", "Aghb"), ("vith", "Vith"), ("vithkuqi", "Vith"), ("lina", "Lina"),
    ("lineara", "Lina"), ("cprt", "Cprt"), ("cypriot", "Cprt"), ("armi", "Armi"),
    ("imperialaramaic", "Armi"), ("palm", "Palm"), ("palmyrene", "Palm"), ("nbat", "Nbat"),
    ("nabataean", "Nbat"), ("hatr", "Hatr"), ("hatran", "Hatr"), ("phnx", "Phnx"),
    ("phoenician", "Phnx"), ("lydi", "Lydi"), ("lydian", "Lydi"), ("mero", "Mero"),
    ("meroitichieroglyphs", "Mero"), ("merc", "Merc"), ("meroiticcursive", "Merc"),
    ("khar", "Khar"), ("kharoshthi", "Khar"), ("sarb", "Sarb"), ("oldsoutharabian", "Sarb"),
    ("narb", "Narb"), ("oldnortharabian", "Narb"), ("mani", "Mani"), ("manichaean", "Mani"),
    ("avst", "Avst"), ("avestan", "Avst"), ("prti", "Prti"), ("inscriptionalparthian", "Prti"),
    ("phli", "Phli"), ("inscriptionalpahlavi", "Phli"), ("phlp", "Phlp"),
    ("psalterpahlavi", "Phlp"), ("orkh", "Orkh"), ("oldturkic", "Orkh"), ("hung", "Hung"),
    ("oldhungarian", "Hung"), ("rohg", "Rohg"), ("hanifirohingya", "Rohg"), ("yezi", "Yezi"),
    ("yezidi", "Yezi"), ("sogo", "Sogo"), ("oldsogdian", "Sogo"), ("sogd", "Sogd"),
    ("sogdian", "Sogd"), ("ougr", "Ougr"), ("olduyghur", "Ougr"), ("chrs", "Chrs"),
    ("chorasmian", "Chrs"), ("elym", "Elym"), ("elymaic", "Elym"), ("brah", "Brah"),
    ("brahmi", "Brah"), ("kthi", "Kthi"), ("kaithi", "Kthi"), ("sora", "Sora"),
    ("sorasompeng", "Sora"), ("cakm", "Cakm"), ("chakma", "Cakm"), ("mahj", "Mahj"),
    ("mahajani", "Mahj"), ("shrd", "Shrd"), ("sharada", "Shrd"), ("khoj", "Khoj"),
    ("khojki", "Khoj"), ("mult", "Mult"), ("multani", "Mult"), ("sind", "Sind"),
    ("khudawadi", "Sind"), ("gran", "Gran"), ("grantha", "Gran"), ("newa", "Newa"),
    ("tirh", "Tirh"), ("tirhuta", "Tirh"), ("sidd", "Sidd"), ("siddham", "Sidd"),
    ("modi", "Modi"), ("takr", "Takr"), ("takri", "Takr"), ("ahom", "Ahom"), ("dogr", "Dogr"),
    ("dogra", "Dogr"), ("wara", "Wara"), ("warangciti", "Wara"), ("diak", "Diak"),
    ("divesakuru", "Diak"), ("nand", "Nand"), ("nandinagari", "Nand"), ("zanb", "Zanb"),
    ("zanabazarsquare", "Zanb"), ("soyo", "Soyo"), ("soyombo", "Soyo"), ("pauc", "Pauc"),
    ("paucinhau", "Pauc"), ("bhks", "Bhks"), ("bhaiksuki", "Bhks"), ("marc", "Marc"),
    ("marchen", "Marc"), ("gonm", "Gonm"), ("masaramgondi", "Gonm"), ("gong", "Gong"),
    ("gunjalagondi", "Gong"), ("maka", "Maka"), ("makasar", "Maka"), ("kawi", "Kawi"),
    ("xsux", "Xsux"), ("cuneiform", "Xsux"), ("cpmn", "Cpmn"), ("cyprominoan", "Cpmn"),
    ("egyp", "Egyp"), ("egyptianhieroglyphs", "Egyp"), ("hluw", "Hluw"),
    ("anatolianhieroglyphs", "Hluw"), ("mroo", "Mroo"), ("mro", "Mroo"), ("tnsa", "Tnsa"),
    ("tangsa", "Tnsa"), ("bass", "Bass"), ("bassavah", "Bass"), ("hmng", "Hmng"),
    ("pahawhhmong", "Hmng"), ("medf", "Medf"), ("medefaidrin", "Medf"), ("plrd", "Plrd"),
    ("miao", "Plrd"), ("tang", "Tang"), ("tangut", "Tang"), ("nshu", "Nshu"), ("nushu", "Nshu"),
    ("kits", "Kits"), ("khitansmallscript", "Kits"), ("dupl", "Dupl"), ("duployan", "Dupl"),
    ("sgnw", "Sgnw"), ("signwriting", "Sgnw"), ("hmnp", "Hmnp"),
    ("nyiakengpuachuehmong", "Hmnp"), ("toto", "Toto"), ("wcho", "Wcho"), ("wancho", "Wcho"),
    ("nagm", "Nagm"), ("nagmundari", "Nagm"), ("mend", "Mend"), ("mendekikakui", "Mend"),
    ("adlm", "Adlm"), ("adlam", "Adlm")]

def scripts : RunTable := .ofLines 4 scriptRuns

/-- Script of a character. -/
def script (c : Char) : String := scripts.value c

end CloudAudit.Text
