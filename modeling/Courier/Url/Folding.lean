import Courier.Text.Canonical.Parts
/-!
# Letters as host names have them

A host name has small letters. Characters of other widths and styles become the
plain ones, ligatures and abbreviations are spelled out, full stops of every
script become a dot, and characters that only say how others are to be drawn are
dropped. The tables are those of version 17 of Unicode. They leave out what is
made of characters that they have.
-/

namespace Courier.Url.Folding

/-- Ranges of characters, and what the first of each becomes; the others follow in order. -/
def shifted : List (Nat × Nat × Nat) :=
  [(0x41, 0x5a, 0x61), (0x391, 0x3a1, 0x3b1), (0x3a3, 0x3a9, 0x3c3), (0x410, 0x418, 0x430),
    (0x41a, 0x42f, 0x43a), (0x531, 0x556, 0x561), (0x10a0, 0x10c5, 0x2d00),
    (0x13f8, 0x13fd, 0x13f0), (0x1c90, 0x1cba, 0x10d0), (0x1d33, 0x1d3a, 0x67),
    (0x2074, 0x2079, 0x34), (0x2080, 0x2089, 0x30), (0x2460, 0x2468, 0x31), (0x24b6, 0x24cf, 0x61),
    (0x24d0, 0x24e9, 0x61), (0x2c00, 0x2c2f, 0x2c30), (0x313a, 0x313f, 0x11b0),
    (0x3145, 0x314e, 0x1109), (0x314f, 0x3163, 0x1161), (0x3178, 0x317c, 0x112b),
    (0x3269, 0x326d, 0x110e), (0x32e4, 0x32e9, 0x30ca), (0x32ee, 0x32f2, 0x30de),
    (0x32f5, 0x32fa, 0x30e8), (0xab70, 0xabbf, 0x13a0), (0xff01, 0xff20, 0x21),
    (0xff21, 0xff3a, 0x61), (0xff3b, 0xff5e, 0x5b), (0xff85, 0xff8a, 0x30ca),
    (0xff8f, 0xff93, 0x30de), (0xff96, 0xff9b, 0x30e8), (0xffaa, 0xffaf, 0x11b0),
    (0xffb5, 0xffbe, 0x1109), (0xffc2, 0xffc7, 0x1161), (0xffca, 0xffcf, 0x1167),
    (0xffd2, 0xffd7, 0x116d), (0x10400, 0x10427, 0x10428), (0x104b0, 0x104d3, 0x104d8),
    (0x10570, 0x1057a, 0x10597), (0x1057c, 0x1058a, 0x105a3), (0x1058c, 0x10592, 0x105b3),
    (0x10c80, 0x10cb2, 0x10cc0), (0x10d50, 0x10d65, 0x10d70), (0x118a0, 0x118bf, 0x118c0),
    (0x16e40, 0x16e5f, 0x16e60), (0x16ea0, 0x16eb8, 0x16ebb), (0x1ccd6, 0x1ccef, 0x61),
    (0x1ccf0, 0x1ccf9, 0x30), (0x1d400, 0x1d419, 0x61), (0x1d41a, 0x1d433, 0x61),
    (0x1d434, 0x1d44d, 0x61), (0x1d44e, 0x1d454, 0x61), (0x1d456, 0x1d467, 0x69),
    (0x1d468, 0x1d481, 0x61), (0x1d482, 0x1d49b, 0x61), (0x1d4ae, 0x1d4b5, 0x73),
    (0x1d4bd, 0x1d4c3, 0x68), (0x1d4c5, 0x1d4cf, 0x70), (0x1d4d0, 0x1d4e9, 0x61),
    (0x1d4ea, 0x1d503, 0x61), (0x1d50d, 0x1d514, 0x6a), (0x1d516, 0x1d51c, 0x73),
    (0x1d51e, 0x1d537, 0x61), (0x1d540, 0x1d544, 0x69), (0x1d54a, 0x1d550, 0x73),
    (0x1d552, 0x1d56b, 0x61), (0x1d56c, 0x1d585, 0x61), (0x1d586, 0x1d59f, 0x61),
    (0x1d5a0, 0x1d5b9, 0x61), (0x1d5ba, 0x1d5d3, 0x61), (0x1d5d4, 0x1d5ed, 0x61),
    (0x1d5ee, 0x1d607, 0x61), (0x1d608, 0x1d621, 0x61), (0x1d622, 0x1d63b, 0x61),
    (0x1d63c, 0x1d655, 0x61), (0x1d656, 0x1d66f, 0x61), (0x1d670, 0x1d689, 0x61),
    (0x1d68a, 0x1d6a3, 0x61), (0x1d6a8, 0x1d6b8, 0x3b1), (0x1d6ba, 0x1d6c0, 0x3c3),
    (0x1d6c2, 0x1d6d2, 0x3b1), (0x1d6d4, 0x1d6da, 0x3c3), (0x1d6e2, 0x1d6f2, 0x3b1),
    (0x1d6f4, 0x1d6fa, 0x3c3), (0x1d6fc, 0x1d70c, 0x3b1), (0x1d70e, 0x1d714, 0x3c3),
    (0x1d71c, 0x1d72c, 0x3b1), (0x1d72e, 0x1d734, 0x3c3), (0x1d736, 0x1d746, 0x3b1),
    (0x1d748, 0x1d74e, 0x3c3), (0x1d756, 0x1d766, 0x3b1), (0x1d768, 0x1d76e, 0x3c3),
    (0x1d770, 0x1d780, 0x3b1), (0x1d782, 0x1d788, 0x3c3), (0x1d790, 0x1d7a0, 0x3b1),
    (0x1d7a2, 0x1d7a8, 0x3c3), (0x1d7aa, 0x1d7ba, 0x3b1), (0x1d7bc, 0x1d7c2, 0x3c3),
    (0x1d7ce, 0x1d7d7, 0x30), (0x1d7d8, 0x1d7e1, 0x30), (0x1d7e2, 0x1d7eb, 0x30),
    (0x1d7ec, 0x1d7f5, 0x30), (0x1d7f6, 0x1d7ff, 0x30), (0x1e030, 0x1e038, 0x430),
    (0x1e03c, 0x1e046, 0x43e), (0x1e051, 0x1e059, 0x430), (0x1e05f, 0x1e064, 0x443),
    (0x1e900, 0x1e921, 0x1e922), (0x1f130, 0x1f149, 0x61), (0x1fbf0, 0x1fbf9, 0x30)]

/-- Ranges in which a capital is followed by its small letter. -/
def paired : List (Nat × Nat) :=
  [(0x182, 0x185), (0x1a2, 0x1a5), (0x1b3, 0x1b6), (0x222, 0x225), (0x246, 0x24f), (0x370, 0x373),
    (0x3d8, 0x3ef), (0x460, 0x475), (0x478, 0x481), (0x48a, 0x4bf), (0x4c3, 0x4ce), (0x4fa, 0x52f),
    (0x1efa, 0x1eff), (0x2c67, 0x2c6c), (0x2c80, 0x2ce3), (0x2ceb, 0x2cee), (0xa640, 0xa66d),
    (0xa680, 0xa69b), (0xa722, 0xa72f), (0xa732, 0xa76f), (0xa779, 0xa77c), (0xa77e, 0xa787),
    (0xa790, 0xa793), (0xa796, 0xa7a9), (0xa7b4, 0xa7c3), (0xa7c7, 0xa7ca), (0xa7cc, 0xa7db)]

/-- Ranges of characters that all become one, which comes last. -/
def merged : List (Nat × Nat × Nat) :=
  [(0x210b, 0x210e, 0x68), (0x211b, 0x211d, 0x72), (0xfb52, 0xfb55, 0x67b),
    (0xfb56, 0xfb59, 0x67e), (0xfb5a, 0xfb5d, 0x680), (0xfb5e, 0xfb61, 0x67a),
    (0xfb62, 0xfb65, 0x67f), (0xfb66, 0xfb69, 0x679), (0xfb6a, 0xfb6d, 0x6a4),
    (0xfb6e, 0xfb71, 0x6a6), (0xfb72, 0xfb75, 0x684), (0xfb76, 0xfb79, 0x683),
    (0xfb7a, 0xfb7d, 0x686), (0xfb7e, 0xfb81, 0x687), (0xfb8e, 0xfb91, 0x6a9),
    (0xfb92, 0xfb95, 0x6af), (0xfb96, 0xfb99, 0x6b3), (0xfb9a, 0xfb9d, 0x6b1),
    (0xfba0, 0xfba3, 0x6bb), (0xfba6, 0xfba9, 0x6c1), (0xfbaa, 0xfbad, 0x6be),
    (0xfbd3, 0xfbd6, 0x6ad), (0xfbe4, 0xfbe7, 0x6d0), (0xfbfc, 0xfbff, 0x6cc),
    (0xfe4d, 0xfe4f, 0x5f), (0xfe89, 0xfe8c, 0x626), (0xfe8f, 0xfe92, 0x628),
    (0xfe95, 0xfe98, 0x62a), (0xfe99, 0xfe9c, 0x62b), (0xfe9d, 0xfea0, 0x62c),
    (0xfea1, 0xfea4, 0x62d), (0xfea5, 0xfea8, 0x62e), (0xfeb1, 0xfeb4, 0x633),
    (0xfeb5, 0xfeb8, 0x634), (0xfeb9, 0xfebc, 0x635), (0xfebd, 0xfec0, 0x636),
    (0xfec1, 0xfec4, 0x637), (0xfec5, 0xfec8, 0x638), (0xfec9, 0xfecc, 0x639),
    (0xfecd, 0xfed0, 0x63a), (0xfed1, 0xfed4, 0x641), (0xfed5, 0xfed8, 0x642),
    (0xfed9, 0xfedc, 0x643), (0xfedd, 0xfee0, 0x644), (0xfee1, 0xfee4, 0x645),
    (0xfee5, 0xfee8, 0x646), (0xfee9, 0xfeec, 0x647), (0xfef1, 0xfef4, 0x64a)]

/-- What consecutive characters stand for. -/
def spelled : List (Nat × String) :=
  [(0xaa, "a"), (0xb2, "2 3"), (0xb5, "μ"), (0xb9, "1 o » 1⁄4 1⁄2 3⁄4"), (0xc6, "æ"), (0xd0, "ð"),
    (0xd8, "ø"), (0xde, "þ"), (0x110, "đ"), (0x126, "ħ"), (0x132, "ij ij"), (0x13f, "l· l· ł"),
    (0x149, "ʼn ŋ"), (0x152, "œ"), (0x166, "ŧ"), (0x17f, "s ƀ ɓ"),
    (0x186, "ɔ ƈ ƈ ɖ ɗ ƌ ƌ ƍ ǝ ə ɛ ƒ ƒ ɠ ɣ ƕ ɩ ɨ ƙ"), (0x19c, "ɯ ɲ ƞ ɵ"),
    (0x1a6, "ʀ ƨ ƨ ʃ ƪ ƫ ƭ ƭ ʈ Ư ư ʊ ʋ"), (0x1b7, "ʒ ƹ"), (0x1bc, "ƽ"),
    (0x1c4, "dž dž dž lj lj lj nj nj nj"), (0x1e4, "ǥ"), (0x1f1, "dz dz dz Ǵ ǵ ƕ ƿ"), (0x21c, "ȝ"),
    (0x220, "ƞ"), (0x23a, "ⱥ ȼ ȼ ƚ ⱦ ȿ ɀ ɂ ɂ ƀ ʉ ʌ"), (0x2b0, "h ɦ j r ɹ ɻ ʁ w y"),
    (0x2e0, "ɣ l s x ʕ"), (0x345, "ι"), (0x376, "ͷ"), (0x37f, "ϳ"), (0x3cf, "ϗ β θ υ ϓ ϔ φ π"),
    (0x3f0, "κ ρ σ ϳ θ ε ϶ ϸ ϸ σ ϻ ϻ ϼ ͻ ͼ ͽ Ѐ Ё ђ Ѓ є ѕ і Ї ј љ њ ћ"), (0x40f, "џ"), (0x4c0, "ӏ"),
    (0x4d4, "ӕ"), (0x4d8, "ә"), (0x4e0, "ӡ"), (0x4e8, "ө"), (0x4f6, "ӷ"), (0x587, "եւ"),
    (0x675, "\u0627\u0674 \u0648\u0674 \u06c7\u0674 \u064a\u0674"), (0xe33, "\u0e4dา"),
    (0xeb3, "\u0ecdາ"), (0xedc, "ຫນ ຫມ"), (0xf0c, "་"),
    (0xf77, "\u0fb2\u0f71\u0f80 \u0f78 \u0fb3\u0f71\u0f80"), (0x10c7, "ⴧ"), (0x10cd, "ⴭ"),
    (0x10fc, "ნ"), (0x1c80, "в д о с т т ъ ѣ ꙋ ᲊ"), (0x1cbd, "ჽ ჾ ჿ"), (0x1d2c, "a æ b ᴯ d e ǝ"),
    (0x1d3c, "o ȣ p r t u w a ɐ ɑ ᴂ b d e ə ɛ ɜ g ᵎ k m ŋ o ɔ ᴖ ᴗ p t u ᴝ ɯ v ᴥ β γ δ φ χ i r u
      v β γ ρ φ χ"),
    (0x1d78, "н"),
    (0x1d9b, "ɒ c ɕ ð ɜ f ɟ ɡ ɥ ɨ ɩ ɪ ᵻ ʝ ɭ ᶅ ʟ ɱ ɰ ɲ ɳ ɴ ɵ ɸ ʂ ʃ ƫ ʉ ʊ ᴜ ʋ ʌ z ʐ ʑ ʒ θ"),
    (0x1e9a, "aʾ"), (0x1e9e, "ß"), (0x2011, "‐"), (0x2033, "′′ ′′′ ‵ ‵‵ ‵‵‵"), (0x203c, "!!"),
    (0x2047, "?? ?! !?"), (0x2057, "′′′′"), (0x2070, "0 i"), (0x207a, "+ − = ( ) n"),
    (0x208a, "+ − = ( )"), (0x2090, "a e o x ə h k l m n p s t"), (0x20a8, "rs"),
    (0x2100, "a/c a/s c °c ℄ c/o c/u ɛ ℈ °f g"), (0x210f, "ħ i i l l ℔ n no ℗ ℘ p q"),
    (0x2120, "sm tel tm ℣ z"), (0x2128, "z"),
    (0x212c, "b c ℮ e e f ⅎ m o \u05d0 \u05d1 \u05d2 \u05d3 i ℺ fax π γ γ π ∑"),
    (0x2145, "d d e i j"),
    (0x2150, "1⁄7 1⁄9 1⁄10 1⁄3 2⁄3 1⁄5 2⁄5 3⁄5 4⁄5 1⁄6 5⁄6 1⁄8 3⁄8 5⁄8 7⁄8 1⁄ i ii iii iv v vi
      vii viii ix x xi xii l c d m i ii iii iv v vi vii viii ix x xi xii l c d m"),
    (0x2183, "ↄ"), (0x2189, "0⁄3"), (0x222c, "∫∫ ∫∫∫ ∮ ∮∮ ∮∮∮"),
    (0x2469, "10 11 12 13 14 15 16 17 18 19 20 (1) (2) (3) (4) (5) (6) (7) (8) (9) (10) (11)
      (12) (13) (14) (15) (16) (17) (18) (19) (20)"),
    (0x249c, "(a) (b) (c) (d) (e) (f) (g) (h) (i) (j) (k) (l) (m) (n) (o) (p) (q) (r) (s) (t)
      (u) (v) (w) (x) (y) (z)"),
    (0x24ea, "0"), (0x2a0c, "∫∫∫∫"), (0x2a74, "::= == ==="), (0x2c60, "ⱡ ⱡ ɫ ᵽ ɽ"),
    (0x2c6d, "ɑ ɱ ɐ ɒ ⱱ ⱳ ⱳ ⱴ ⱶ"), (0x2c7c, "j v ȿ ɀ"), (0x2cf2, "ⳳ"), (0x2d6f, "ⵡ"), (0x2e9f, "母"),
    (0x2ef3, "龟"),
    (0x2f00, "一 丨 丶 丿 乙 亅 二 亠 人 儿 入 八 冂 冖 冫 几 凵 刀 力 勹 匕 匚 匸 十 卜 卩 厂 厶 又 口 囗 土 士 夂 夊 夕 大 女 子 宀 寸
      小 尢 尸 屮 山 巛 工 己 巾 干 幺 广 廴 廾 弋 弓 彐 彡 彳 心 戈 戶 手 支 攴 文 斗 斤 方 无 日 曰 月 木 欠 止 歹 殳 毋 比 毛 氏 气 水 火
      爪 父 爻 爿 片 牙 牛 犬 玄 玉 瓜 瓦 甘 生 用 田 疋 疒 癶 白 皮 皿 目 矛 矢 石 示 禸 禾 穴 立 竹 米 糸 缶 网 羊 羽 老 而 耒 耳 聿 肉 臣
      自 至 臼 舌 舛 舟 艮 色 艸 虍 虫 血 行 衣 襾 見 角 言 谷 豆 豕 豸 貝 赤 走 足 身 車 辛 辰 辵 邑 酉 釆 里 金 長 門 阜 隶 隹 雨 靑 非 面
      革 韋 韭 音 頁 風 飛 食 首 香 馬 骨 高 髟 鬥 鬯 鬲 鬼 魚 鳥 鹵 鹿 麥 麻 黃 黍 黑 黹 黽 鼎 鼓 鼠 鼻 齊 齒 龍 龜 龠"),
    (0x3002, "."), (0x3036, "〒 〷 十 卄 卅"), (0x309f, "より"), (0x30ff, "コト"),
    (0x3131, "ᄀ ᄁ ᆪ ᄂ ᆬ ᆭ ᄃ ᄄ ᄅ"), (0x3140, "ᄚ ᄆ ᄇ ᄈ ᄡ"),
    (0x3165, "ᄔ ᄕ ᇇ ᇈ ᇌ ᇎ ᇓ ᇗ ᇙ ᄜ ᇝ ᇟ ᄝ ᄞ ᄠ ᄢ ᄣ ᄧ ᄩ"),
    (0x317d, "ᄲ ᄶ ᅀ ᅇ ᅌ ᇱ ᇲ ᅗ ᅘ ᅙ ᆄ ᆅ ᆈ ᆑ ᆒ ᆔ ᆞ ᆡ"), (0x3192, "一 二 三 四 上 中 下 甲 乙 丙 丁 天 地 人"),
    (0x3200, "(ᄀ) (ᄂ) (ᄃ) (ᄅ) (ᄆ) (ᄇ) (ᄉ) (ᄋ) (ᄌ) (ᄎ) (ᄏ) (ᄐ) (ᄑ) (ᄒ) (가) (나) (다) (라) (마) (바)
      (사) (아) (자) (차) (카) (타) (파) (하) (주) (오전) (오후)"),
    (0x3220, "(一) (二) (三) (四) (五) (六) (七) (八) (九) (十) (月) (火) (水) (木) (金) (土) (日) (株) (有) (社)
      (名) (特) (財) (祝) (労) (代) (呼) (学) (監) (企) (資) (協) (祭) (休) (自) (至) 問 幼 文 箏"),
    (0x3250, "pte 21 22 23 24 25 26 27 28 29 30 31 32 33 34 35 ᄀ ᄂ ᄃ ᄅ ᄆ ᄇ ᄉ ᄋ ᄌ"),
    (0x326e, "가 나 다 라 마 바 사 아 자 차 카 타 파 하 참고 주의 우 ㉿ 一 二 三 四 五 六 七 八 九 十 月 火 水 木 金 土 日 株 有 社 名 特
      財 祝 労 秘 男 女 適 優 印 注 項 休 写 正 上 中 下 左 右 医 宗 学 監 企 資 協 夜 36 37 38 39 40 41 42 43 44 45 46 47
      48 49 50 1月 2月 3月 4月 5月 6月 7月 8月 9月 10月 11月 12月 hg erg ev ltd ア イ ウ エ オ カ キ ク ケ コ サ シ ス セ
      ソ タ チ ツ テ ト"),
    (0x32ea, "ヒ フ ヘ ホ"), (0x32f3, "ヤ ユ"),
    (0x32fb, "ワ ヰ ヱ ヲ 令和 アパート アルファ アンペア アール イニング インチ ウォン エスクード エーカー オンス オーム カイリ カラット カロリー ガロン
      ガンマ ギガ ギニー キュリー ギルダー キロ キログラム キロメートル キロワット グラム グラムトン クルゼイロ クローネ ケース コルナ コーポ サイクル サンチーム
      シリング センチ セント ダース デシ ドル トン ナノ ノット ハイツ パーセント パーツ バーレル ピアストル ピクル ピコ ビル ファラッド フィート ブッシェル フラン
      ヘクタール ペソ ペニヒ ヘルツ ペンス ページ ベータ ポイント ボルト ホン ポンド ホール ホーン マイクロ マイル マッハ マルク マンション ミクロン ミリ ミリバール
      メガ メガトン メートル ヤード ヤール ユアン リットル リラ ルピー ルーブル レム レントゲン ワット 0点 1点 2点 3点 4点 5点 6点 7点 8点 9点 10点
      11点 12点 13点 14点 15点 16点 17点 18点 19点 20点 21点 22点 23点 24点 hpa da au bar ov pc dm dm2 dm3 iu
      平成 昭和 大正 明治 株式会社 pa na μa ma ka kb mb gb cal kcal pf nf μf μg mg kg hz khz mhz ghz thz μl
      ml dl kl fm nm μm mm cm km mm2 cm2 m2 km2 mm3 cm3 m3 km3 m∕s m∕s2 pa kpa mpa gpa rad rad∕s
      rad∕s2 ps ns μs ms pv nv μv mv kv mv pw nw μw mw kw mw kω mω ㏂ bq cc cd c∕kg ㏇ db gy ha hp
      in kk km kt lm ln log lx mb mil mol ph ㏘ ppm pr sr sv wb v∕m a∕m 1日 2日 3日 4日 5日 6日 7日 8日
      9日 10日 11日 12日 13日 14日 15日 16日 17日 18日 19日 20日 21日 22日 23日 24日 25日 26日 27日 28日 29日 30日 31日
      gal"),
    (0xa69c, "ъ ь"), (0xa770, "ꝯ"), (0xa77d, "ᵹ"), (0xa78b, "ꞌ ꞌ ɥ"),
    (0xa7aa, "ɦ ɜ ɡ ɬ ɪ ꞯ ʞ ʇ ʝ ꭓ"), (0xa7c4, "ꞔ ʂ ᶎ"), (0xa7cb, "ɤ"), (0xa7dc, "ƛ"),
    (0xa7f1, "s c f q ꟶ ꟶ ꟷ ħ œ"), (0xab5c, "ꜧ ꬷ ɫ ꭒ"), (0xab69, "ʍ"),
    (0xfb00, "ff fi fl ffi ffl st st"), (0xfb13, "մն մե մի վն մխ"),
    (0xfb20, "\u05e2 \u05d0 \u05d3 \u05d4 \u05db \u05dc \u05dd \u05e8 \u05ea +"),
    (0xfb4f, "\u05d0\u05dc \u0671 \u0671"),
    (0xfb82, "\u068d \u068d \u068c \u068c \u068e \u068e \u0688 \u0688 \u0698 \u0698 \u0691
      \u0691"),
    (0xfb9e, "\u06ba \u06ba"), (0xfba4, "\u06c0 \u06c0"), (0xfbae, "\u06d2 \u06d2 \u06d3 \u06d3"),
    (0xfbd7, "\u06c7 \u06c7 \u06c6 \u06c6 \u06c8 \u06c8 \u06c7\u0674 \u06cb \u06cb \u06c5 \u06c5
      \u06c9 \u06c9"),
    (0xfbe8, "\u0649 \u0649 \u0626\u0627 \u0626\u0627 \u0626\u06d5 \u0626\u06d5 \u0626\u0648
      \u0626\u0648 \u0626\u06c7 \u0626\u06c7 \u0626\u06c6 \u0626\u06c6 \u0626\u06c8 \u0626\u06c8
      \u0626\u06d0 \u0626\u06d0 \u0626\u06d0 \u0626\u0649 \u0626\u0649 \u0626\u0649"),
    (0xfc00, "\u0626\u062c \u0626\u062d \u0626\u0645 \u0626\u0649 \u0626\u064a \u0628\u062c
      \u0628\u062d \u0628\u062e \u0628\u0645 \u0628\u0649 \u0628\u064a \u062a\u062c \u062a\u062d
      \u062a\u062e \u062a\u0645 \u062a\u0649 \u062a\u064a \u062b\u062c \u062b\u0645 \u062b\u0649
      \u062b\u064a \u062c\u062d \u062c\u0645 \u062d\u062c \u062d\u0645 \u062e\u062c \u062e\u062d
      \u062e\u0645 \u0633\u062c \u0633\u062d \u0633\u062e \u0633\u0645 \u0635\u062d \u0635\u0645
      \u0636\u062c \u0636\u062d \u0636\u062e \u0636\u0645 \u0637\u062d \u0637\u0645 \u0638\u0645
      \u0639\u062c \u0639\u0645 \u063a\u062c \u063a\u0645 \u0641\u062c \u0641\u062d \u0641\u062e
      \u0641\u0645 \u0641\u0649 \u0641\u064a \u0642\u062d \u0642\u0645 \u0642\u0649 \u0642\u064a
      \u0643\u0627 \u0643\u062c \u0643\u062d \u0643\u062e \u0643\u0644 \u0643\u0645 \u0643\u0649
      \u0643\u064a \u0644\u062c \u0644\u062d \u0644\u062e \u0644\u0645 \u0644\u0649 \u0644\u064a
      \u0645\u062c \u0645\u062d \u0645\u062e \u0645\u0645 \u0645\u0649 \u0645\u064a \u0646\u062c
      \u0646\u062d \u0646\u062e \u0646\u0645 \u0646\u0649 \u0646\u064a \u0647\u062c \u0647\u0645
      \u0647\u0649 \u0647\u064a \u064a\u062c \u064a\u062d \u064a\u062e \u064a\u0645 \u064a\u0649
      \u064a\u064a \u0630\u0670 \u0631\u0670 \u0649\u0670"),
    (0xfc64, "\u0626\u0631 \u0626\u0632 \u0626\u0645 \u0626\u0646 \u0626\u0649 \u0626\u064a
      \u0628\u0631 \u0628\u0632 \u0628\u0645 \u0628\u0646 \u0628\u0649 \u0628\u064a \u062a\u0631
      \u062a\u0632 \u062a\u0645 \u062a\u0646 \u062a\u0649 \u062a\u064a \u062b\u0631 \u062b\u0632
      \u062b\u0645 \u062b\u0646 \u062b\u0649 \u062b\u064a \u0641\u0649 \u0641\u064a \u0642\u0649
      \u0642\u064a \u0643\u0627 \u0643\u0644 \u0643\u0645 \u0643\u0649 \u0643\u064a \u0644\u0645
      \u0644\u0649 \u0644\u064a \u0645\u0627 \u0645\u0645 \u0646\u0631 \u0646\u0632 \u0646\u0645
      \u0646\u0646 \u0646\u0649 \u0646\u064a \u0649\u0670 \u064a\u0631 \u064a\u0632 \u064a\u0645
      \u064a\u0646 \u064a\u0649 \u064a\u064a \u0626\u062c \u0626\u062d \u0626\u062e \u0626\u0645
      \u0626\u0647 \u0628\u062c \u0628\u062d \u0628\u062e \u0628\u0645 \u0628\u0647 \u062a\u062c
      \u062a\u062d \u062a\u062e \u062a\u0645 \u062a\u0647 \u062b\u0645 \u062c\u062d \u062c\u0645
      \u062d\u062c \u062d\u0645 \u062e\u062c \u062e\u0645 \u0633\u062c \u0633\u062d \u0633\u062e
      \u0633\u0645 \u0635\u062d \u0635\u062e \u0635\u0645 \u0636\u062c \u0636\u062d \u0636\u062e
      \u0636\u0645 \u0637\u062d \u0638\u0645 \u0639\u062c \u0639\u0645 \u063a\u062c \u063a\u0645
      \u0641\u062c \u0641\u062d \u0641\u062e \u0641\u0645 \u0642\u062d \u0642\u0645 \u0643\u062c
      \u0643\u062d \u0643\u062e \u0643\u0644 \u0643\u0645 \u0644\u062c \u0644\u062d \u0644\u062e
      \u0644\u0645 \u0644\u0647 \u0645\u062c \u0645\u062d \u0645\u062e \u0645\u0645 \u0646\u062c
      \u0646\u062d \u0646\u062e \u0646\u0645 \u0646\u0647 \u0647\u062c \u0647\u0645 \u0647\u0670
      \u064a\u062c \u064a\u062d \u064a\u062e \u064a\u0645 \u064a\u0647 \u0626\u0645 \u0626\u0647
      \u0628\u0645 \u0628\u0647 \u062a\u0645 \u062a\u0647 \u062b\u0645 \u062b\u0647 \u0633\u0645
      \u0633\u0647 \u0634\u0645 \u0634\u0647 \u0643\u0644 \u0643\u0645 \u0644\u0645 \u0646\u0645
      \u0646\u0647 \u064a\u0645 \u064a\u0647 \u0640\u064e\u0651 \u0640\u064f\u0651
      \u0640\u0650\u0651 \u0637\u0649 \u0637\u064a \u0639\u0649 \u0639\u064a \u063a\u0649
      \u063a\u064a \u0633\u0649 \u0633\u064a \u0634\u0649 \u0634\u064a \u062d\u0649 \u062d\u064a
      \u062c\u0649 \u062c\u064a \u062e\u0649 \u062e\u064a \u0635\u0649 \u0635\u064a \u0636\u0649
      \u0636\u064a \u0634\u062c \u0634\u062d \u0634\u062e \u0634\u0645 \u0634\u0631 \u0633\u0631
      \u0635\u0631 \u0636\u0631 \u0637\u0649 \u0637\u064a \u0639\u0649 \u0639\u064a \u063a\u0649
      \u063a\u064a \u0633\u0649 \u0633\u064a \u0634\u0649 \u0634\u064a \u062d\u0649 \u062d\u064a
      \u062c\u0649 \u062c\u064a \u062e\u0649 \u062e\u064a \u0635\u0649 \u0635\u064a \u0636\u0649
      \u0636\u064a \u0634\u062c \u0634\u062d \u0634\u062e \u0634\u0645 \u0634\u0631 \u0633\u0631
      \u0635\u0631 \u0636\u0631 \u0634\u062c \u0634\u062d \u0634\u062e \u0634\u0645 \u0633\u0647
      \u0634\u0647 \u0637\u0645 \u0633\u062c \u0633\u062d \u0633\u062e \u0634\u062c \u0634\u062d
      \u0634\u062e \u0637\u0645 \u0638\u0645 \u0627\u064b \u0627\u064b"),
    (0xfd50, "\u062a\u062c\u0645 \u062a\u062d\u062c \u062a\u062d\u062c \u062a\u062d\u0645
      \u062a\u062e\u0645 \u062a\u0645\u062c \u062a\u0645\u062d \u062a\u0645\u062e
      \u062c\u0645\u062d \u062c\u0645\u062d \u062d\u0645\u064a \u062d\u0645\u0649
      \u0633\u062d\u062c \u0633\u062c\u062d \u0633\u062c\u0649 \u0633\u0645\u062d
      \u0633\u0645\u062d \u0633\u0645\u062c \u0633\u0645\u0645 \u0633\u0645\u0645
      \u0635\u062d\u062d \u0635\u062d\u062d \u0635\u0645\u0645 \u0634\u062d\u0645
      \u0634\u062d\u0645 \u0634\u062c\u064a \u0634\u0645\u062e \u0634\u0645\u062e
      \u0634\u0645\u0645 \u0634\u0645\u0645 \u0636\u062d\u0649 \u0636\u062e\u0645
      \u0636\u062e\u0645 \u0637\u0645\u062d \u0637\u0645\u062d \u0637\u0645\u0645
      \u0637\u0645\u064a \u0639\u062c\u0645 \u0639\u0645\u0645 \u0639\u0645\u0645
      \u0639\u0645\u0649 \u063a\u0645\u0645 \u063a\u0645\u064a \u063a\u0645\u0649
      \u0641\u062e\u0645 \u0641\u062e\u0645 \u0642\u0645\u062d \u0642\u0645\u0645
      \u0644\u062d\u0645 \u0644\u062d\u064a \u0644\u062d\u0649 \u0644\u062c\u062c
      \u0644\u062c\u062c \u0644\u062e\u0645 \u0644\u062e\u0645 \u0644\u0645\u062d
      \u0644\u0645\u062d \u0645\u062d\u062c \u0645\u062d\u0645 \u0645\u062d\u064a
      \u0645\u062c\u062d \u0645\u062c\u0645 \u0645\u062e\u062c \u0645\u062e\u0645 ﶐ ﶑
      \u0645\u062c\u062e \u0647\u0645\u062c \u0647\u0645\u0645 \u0646\u062d\u0645
      \u0646\u062d\u0649 \u0646\u062c\u0645 \u0646\u062c\u0645 \u0646\u062c\u0649
      \u0646\u0645\u064a \u0646\u0645\u0649 \u064a\u0645\u0645 \u064a\u0645\u0645
      \u0628\u062e\u064a \u062a\u062c\u064a \u062a\u062c\u0649 \u062a\u062e\u064a
      \u062a\u062e\u0649 \u062a\u0645\u064a \u062a\u0645\u0649 \u062c\u0645\u064a
      \u062c\u062d\u0649 \u062c\u0645\u0649 \u0633\u062e\u0649 \u0635\u062d\u064a
      \u0634\u062d\u064a \u0636\u062d\u064a \u0644\u062c\u064a \u0644\u0645\u064a
      \u064a\u062d\u064a \u064a\u062c\u064a \u064a\u0645\u064a \u0645\u0645\u064a
      \u0642\u0645\u064a \u0646\u062d\u064a \u0642\u0645\u062d \u0644\u062d\u0645
      \u0639\u0645\u064a \u0643\u0645\u064a \u0646\u062c\u062d \u0645\u062e\u064a
      \u0644\u062c\u0645 \u0643\u0645\u0645 \u0644\u062c\u0645 \u0646\u062c\u062d
      \u062c\u062d\u064a \u062d\u062c\u064a \u0645\u062c\u064a \u0641\u0645\u064a
      \u0628\u062d\u064a \u0643\u0645\u0645 \u0639\u062c\u0645 \u0635\u0645\u0645
      \u0633\u062e\u064a \u0646\u062c\u064a"),
    (0xfdf0, "\u0635\u0644\u06d2 \u0642\u0644\u06d2 \u0627\u0644\u0644\u0647
      \u0627\u0643\u0628\u0631 \u0645\u062d\u0645\u062f \u0635\u0644\u0639\u0645
      \u0631\u0633\u0648\u0644 \u0639\u0644\u064a\u0647 \u0648\u0633\u0644\u0645
      \u0635\u0644\u0649"),
    (0xfdfc, "\u0631\u06cc\u0627\u0644"), (0xfe10, ", 、 ︒ : ; ! ? 〖 〗"),
    (0xfe31, "— – _ _ ( ) \x7b \x7d 〔 〕 【 】 《 》 〈 〉 「 」 『 』 ﹅ ﹆ [ ]"), (0xfe50, ", 、"),
    (0xfe54, "; : ? ! — ( ) \x7b \x7d 〔 〕 # & * + - < > ="), (0xfe68, "\\ $ % @"),
    (0xfe71, "\u0640\u064b"), (0xfe77, "\u0640\u064e"), (0xfe79, "\u0640\u064f"),
    (0xfe7b, "\u0640\u0650"), (0xfe7d, "\u0640\u0651"),
    (0xfe7f, "\u0640\u0652 \u0621 \u0622 \u0622 \u0623 \u0623 \u0624 \u0624 \u0625 \u0625"),
    (0xfe8d, "\u0627 \u0627"), (0xfe93, "\u0629 \u0629"),
    (0xfea9, "\u062f \u062f \u0630 \u0630 \u0631 \u0631 \u0632 \u0632"),
    (0xfeed, "\u0648 \u0648 \u0649 \u0649"),
    (0xfef5, "\u0644\u0622 \u0644\u0622 \u0644\u0623 \u0644\u0623 \u0644\u0625 \u0644\u0625
      \u0644\u0627 \u0644\u0627"),
    (0xff5f, "⦅ ⦆ . 「 」 、 ・ ヲ ァ ィ ゥ ェ ォ ャ ュ ョ ッ ー ア イ ウ エ オ カ キ ク ケ コ サ シ ス セ ソ タ チ ツ テ ト"),
    (0xff8b, "ヒ フ ヘ ホ"), (0xff94, "ヤ ユ"), (0xff9c, "ワ ン \u3099 \u309a ﾠ ᄀ ᄁ ᆪ ᄂ ᆬ ᆭ ᄃ ᄄ ᄅ"),
    (0xffb0, "ᄚ ᄆ ᄇ ᄈ ᄡ"), (0xffda, "ᅳ ᅴ ᅵ"), (0xffe0, "¢ £ ¬"), (0xffe4, "¦ ¥ ₩"),
    (0xffe8, "│ ← ↑ → ↓ ■ ○"), (0x10594, "𐖻 𐖼"), (0x10781, "ː ˑ æ ʙ ɓ"),
    (0x10787, "ʣ ꭦ ʥ ʤ ɖ ɗ ᶑ ɘ ɞ ʩ ɤ ɢ ɠ ʛ ħ ʜ ɧ ʄ ʪ ʫ ɬ 𝼄 ꞎ ɮ 𝼅 ʎ 𝼆 ø ɶ ɷ q ɺ 𝼈 ɽ ɾ ʀ ʨ ʦ ꭧ ʧ ʈ
      ⱱ"),
    (0x107b2, "ʏ ʡ ʢ ʘ ǀ ǁ ǂ 𝼊 𝼞"), (0x1d49c, "a"), (0x1d49e, "c d"), (0x1d4a2, "g"),
    (0x1d4a5, "j k"), (0x1d4a9, "n o p q"), (0x1d4b6, "a b c d"), (0x1d4bb, "f"), (0x1d504, "a b"),
    (0x1d507, "d e f g"), (0x1d538, "a b"), (0x1d53b, "d e f g"), (0x1d546, "o"), (0x1d6a4, "ı ȷ"),
    (0x1d6b9, "θ"), (0x1d6c1, "∇"), (0x1d6d3, "σ"), (0x1d6db, "∂ ε θ κ φ ρ π"), (0x1d6f3, "θ"),
    (0x1d6fb, "∇"), (0x1d70d, "σ"), (0x1d715, "∂ ε θ κ φ ρ π"), (0x1d72d, "θ"), (0x1d735, "∇"),
    (0x1d747, "σ"), (0x1d74f, "∂ ε θ κ φ ρ π"), (0x1d767, "θ"), (0x1d76f, "∇"), (0x1d781, "σ"),
    (0x1d789, "∂ ε θ κ φ ρ π"), (0x1d7a1, "θ"), (0x1d7a9, "∇"), (0x1d7bb, "σ"),
    (0x1d7c3, "∂ ε θ κ φ ρ π ϝ ϝ"), (0x1e039, "к л м"), (0x1e047, "ы э ю ꚉ ә і ј ө ү ӏ"),
    (0x1e05a, "к л о п с"), (0x1e065, "ъ ы ґ і ѕ џ ҫ ꙑ ұ"),
    (0x1ee00, "\u0627 \u0628 \u062c \u062f"),
    (0x1ee05, "\u0648 \u0632 \u062d \u0637 \u064a \u0643 \u0644 \u0645 \u0646 \u0633 \u0639
      \u0641 \u0635 \u0642 \u0631 \u0634 \u062a \u062b \u062e \u0630 \u0636 \u0638 \u063a \u066e
      \u06ba \u06a1 \u066f"),
    (0x1ee21, "\u0628 \u062c"), (0x1ee24, "\u0647"), (0x1ee27, "\u062d"),
    (0x1ee29, "\u064a \u0643 \u0644 \u0645 \u0646 \u0633 \u0639 \u0641 \u0635 \u0642"),
    (0x1ee34, "\u0634 \u062a \u062b \u062e"), (0x1ee39, "\u0636"), (0x1ee3b, "\u063a"),
    (0x1ee42, "\u062c"), (0x1ee47, "\u062d"), (0x1ee49, "\u064a"), (0x1ee4b, "\u0644"),
    (0x1ee4d, "\u0646 \u0633 \u0639"), (0x1ee51, "\u0635 \u0642"), (0x1ee54, "\u0634"),
    (0x1ee57, "\u062e"), (0x1ee59, "\u0636"), (0x1ee5b, "\u063a"), (0x1ee5d, "\u06ba"),
    (0x1ee5f, "\u066f"), (0x1ee61, "\u0628 \u062c"), (0x1ee64, "\u0647"),
    (0x1ee67, "\u062d \u0637 \u064a \u0643"),
    (0x1ee6c, "\u0645 \u0646 \u0633 \u0639 \u0641 \u0635 \u0642"),
    (0x1ee74, "\u0634 \u062a \u062b \u062e"), (0x1ee79, "\u0636 \u0638 \u063a \u066e"),
    (0x1ee7e, "\u06a1"),
    (0x1ee80, "\u0627 \u0628 \u062c \u062f \u0647 \u0648 \u0632 \u062d \u0637 \u064a"),
    (0x1ee8b, "\u0644 \u0645 \u0646 \u0633 \u0639 \u0641 \u0635 \u0642 \u0631 \u0634 \u062a
      \u062b \u062e \u0630 \u0636 \u0638 \u063a"),
    (0x1eea1, "\u0628 \u062c \u062f"), (0x1eea5, "\u0648 \u0632 \u062d \u0637 \u064a"),
    (0x1eeab, "\u0644 \u0645 \u0646 \u0633 \u0639 \u0641 \u0635 \u0642 \u0631 \u0634 \u062a
      \u062b \u062e \u0630 \u0636 \u0638 \u063a"),
    (0x1f101, "0, 1, 2, 3, 4, 5, 6, 7, 8, 9,"),
    (0x1f110, "(a) (b) (c) (d) (e) (f) (g) (h) (i) (j) (k) (l) (m) (n) (o) (p) (q) (r) (s) (t)
      (u) (v) (w) (x) (y) (z) 〔s〕 c r cd wz"),
    (0x1f14a, "hv mv sd ss ppv wc"), (0x1f16a, "mc md mr"), (0x1f190, "dj"), (0x1f200, "ほか ココ サ"),
    (0x1f210, "手 字 双 デ 二 多 解 天 交 映 無 料 前 後 再 新 初 終 生 販 声 吹 演 投 捕 一 三 遊 左 中 右 指 走 打 禁 空 合 満 有 月 申
      割 営 配"),
    (0x1f240, "〔本〕 〔三〕 〔二〕 〔安〕 〔点〕 〔打〕 〔盗〕 〔勝〕 〔敗〕"), (0x1f250, "得 可")]

/-- What stands for a space, alone or with a mark on it. No name has one. -/
def blank : List (Nat × Nat) :=
  [(0xa0, 0xa0), (0xa8, 0xa8), (0xaf, 0xaf), (0xb4, 0xb4), (0xb8, 0xb8), (0x2d8, 0x2dd),
    (0x37a, 0x37a), (0x384, 0x384), (0x1fbd, 0x1fbd), (0x1fbf, 0x1fc0), (0x1ffe, 0x1ffe),
    (0x2002, 0x200a), (0x2017, 0x2017), (0x202f, 0x202f), (0x203e, 0x203e), (0x205f, 0x205f),
    (0x3000, 0x3000), (0x309b, 0x309c), (0xfc5e, 0xfc63), (0xfdfa, 0xfdfb), (0xfe49, 0xfe4c),
    (0xfe70, 0xfe70), (0xfe72, 0xfe72), (0xfe74, 0xfe74), (0xfe76, 0xfe76), (0xfe78, 0xfe78),
    (0xfe7a, 0xfe7a), (0xfe7c, 0xfe7c), (0xfe7e, 0xfe7e), (0xffe3, 0xffe3)]

def dropped : List (Nat × Nat) :=
  [(0xad, 0xad), (0x34f, 0x34f), (0x115f, 0x1160), (0x17b4, 0x17b5), (0x180b, 0x180f),
    (0x200b, 0x200b), (0x2060, 0x2064), (0x206a, 0x206f), (0x3164, 0x3164), (0xfe00, 0xfe0f),
    (0xfeff, 0xfeff), (0xffa0, 0xffa0), (0x1bca0, 0x1bca3), (0x1d173, 0x1d17a), (0xe0100, 0xe01ef)]

/-- What may not even be written in place of something else: controls, formatting, private
characters, and signs with a full stop in them. -/
def refused : List (Nat × Nat) :=
  [(0x80, 0x9f), (0x600, 0x605), (0x61c, 0x61c), (0x6dd, 0x6dd), (0x70f, 0x70f), (0x890, 0x891),
    (0x8e2, 0x8e2), (0x1680, 0x1680), (0x200e, 0x200f), (0x2024, 0x2026), (0x2028, 0x202e),
    (0x2066, 0x2069), (0x2488, 0x249b), (0x2ff0, 0x2fff), (0x31ef, 0x31ef), (0x33c2, 0x33c2),
    (0x33c7, 0x33c7), (0x33d8, 0x33d8), (0xd800, 0xf8ff), (0xfe12, 0xfe12), (0xfe19, 0xfe19),
    (0xfe30, 0xfe30), (0xfe52, 0xfe52), (0xfff9, 0xfffd), (0x110bd, 0x110bd), (0x110cd, 0x110cd),
    (0x13430, 0x1343f), (0x1f100, 0x1f100), (0xe0001, 0xe0001), (0xe0020, 0xe007f),
    (0xf0000, 0xffffd), (0x100000, 0x10fffd)]

def spelledRows : List (Nat × List (List Char)) := Table.rows spelled

/-- The value of the first range that a code point lies in, with its distance from the first. -/
def place? (rs : List (Nat × Nat × Nat)) (n : Nat) : Option (Nat × Nat) :=
  (rs.find? fun r => decide (r.1 ≤ n ∧ n ≤ r.2.1)).map fun r => (r.2.2, n - r.1)

/-- The first code point of the range of pairs that a code point lies in. -/
def pair? (n : Nat) : Option Nat :=
  (paired.find? fun r => decide (r.1 ≤ n ∧ n ≤ r.2)).map (·.1)

/-- What becomes of a character that is not made of others. -/
def small (c : Char) : List Char :=
  let n := c.toNat
  if Table.within dropped n then []
  else if Table.within blank n then [' ']
  else
    match place? shifted n, place? merged n, pair? n with
    | some (target, i), _, _ => [Char.ofNat (target + i)]
    | none, some (target, _), _ => [Char.ofNat target]
    | none, none, some first => if (n - first) % 2 = 0 then [Char.ofNat (n + 1)] else [c]
    | none, none, none => (Table.word? spelledRows n).getD [c]

def fold (c : Char) : List Char := (Canonical.parts c).flatMap small

def isRefused (c : Char) : Bool := Table.within refused c.toNat

end Courier.Url.Folding
