import CloudAudit.Text.Category

/-!
Letters, their case, and the characters of words. Beyond the general categories, the Unicode
character database counts further characters as letters, or as small or capital ones.
-/

namespace CloudAudit.Text

/-- Letters that are none by their category: vowel signs, and letters in circles and boxes. -/
def otherLetters : List (Nat × Nat) :=
  [(837, 1), (1456, 14), (1471, 1), (1473, 2), (1476, 2), (1479, 1), (1552, 11), (1611, 13),
    (1625, 7), (1648, 1), (1750, 7), (1761, 4), (1767, 2), (1773, 1), (1809, 1), (1840, 16),
    (1958, 11), (2070, 2), (2075, 9), (2085, 3), (2089, 4), (2260, 12), (2275, 7), (2288, 20),
    (2362, 2), (2366, 15), (2382, 2), (2389, 3), (2402, 2), (2433, 3), (2494, 7), (2503, 2),
    (2507, 2), (2519, 1), (2530, 2), (2561, 3), (2622, 5), (2631, 2), (2635, 2), (2641, 1),
    (2672, 2), (2677, 1), (2689, 3), (2750, 8), (2759, 3), (2763, 2), (2786, 2), (2810, 3),
    (2817, 3), (2878, 7), (2887, 2), (2891, 2), (2902, 2), (2914, 2), (2946, 1), (3006, 5),
    (3014, 3), (3018, 3), (3031, 1), (3072, 5), (3134, 7), (3142, 3), (3146, 3), (3157, 2),
    (3170, 2), (3201, 3), (3262, 7), (3270, 3), (3274, 3), (3285, 2), (3298, 2), (3315, 1),
    (3328, 4), (3390, 7), (3398, 3), (3402, 3), (3415, 1), (3426, 2), (3457, 3), (3535, 6),
    (3542, 1), (3544, 8), (3570, 2), (3633, 1), (3636, 7), (3661, 1), (3761, 1), (3764, 6),
    (3771, 2), (3789, 1), (3953, 19), (3981, 11), (3993, 36), (4139, 12), (4152, 1), (4155, 4),
    (4182, 4), (4190, 3), (4194, 3), (4199, 7), (4209, 4), (4226, 12), (4239, 1), (4250, 4),
    (5906, 2), (5938, 2), (5970, 2), (6002, 2), (6070, 19), (6277, 2), (6313, 1), (6432, 12),
    (6448, 9), (6679, 5), (6741, 10), (6753, 20), (6847, 2), (6860, 3), (6912, 5), (6965, 15),
    (7040, 3), (7073, 9), (7084, 2), (7143, 11), (7204, 19), (7655, 14), (9398, 52), (11744, 32),
    (42612, 8), (42654, 2), (43010, 1), (43019, 1), (43043, 5), (43136, 2), (43188, 16),
    (43205, 1), (43263, 1), (43302, 5), (43335, 12), (43392, 4), (43444, 12), (43493, 1),
    (43561, 14), (43587, 1), (43596, 2), (43643, 3), (43696, 1), (43698, 3), (43703, 2),
    (43710, 1), (43755, 5), (43765, 1), (44003, 8), (64286, 1), (66422, 5), (68097, 3),
    (68101, 2), (68108, 4), (68900, 4), (69291, 2), (69632, 3), (69688, 14), (69747, 2),
    (69760, 3), (69808, 9), (69826, 1), (69888, 3), (69927, 12), (69957, 2), (70016, 3),
    (70067, 13), (70094, 2), (70188, 9), (70199, 1), (70206, 1), (70209, 1), (70367, 10),
    (70400, 4), (70462, 7), (70471, 2), (70475, 2), (70487, 1), (70498, 2), (70709, 13),
    (70723, 3), (70832, 18), (71087, 7), (71096, 7), (71132, 2), (71216, 15), (71232, 1),
    (71339, 11), (71453, 14), (71724, 13), (71984, 6), (71991, 2), (71995, 2), (72000, 1),
    (72002, 1), (72145, 7), (72154, 6), (72164, 1), (72193, 10), (72245, 5), (72251, 4),
    (72273, 11), (72330, 14), (72751, 8), (72760, 7), (72850, 22), (72873, 14), (73009, 6),
    (73018, 1), (73020, 2), (73023, 3), (73027, 1), (73031, 1), (73098, 5), (73104, 2),
    (73107, 4), (73459, 4), (73472, 2), (73475, 1), (73524, 7), (73534, 3), (94031, 1),
    (94033, 55), (94095, 4), (94192, 2), (113822, 1), (122880, 7), (122888, 17), (122907, 7),
    (122915, 2), (122918, 5), (123023, 1), (125255, 1), (127280, 26), (127312, 26), (127344, 26)]

/-- Small letters that are none by their category. -/
def otherSmall : List (Nat × Nat) :=
  [(170, 1), (186, 1), (688, 9), (704, 2), (736, 5), (837, 1), (890, 1), (4348, 1), (7468, 63),
    (7544, 1), (7579, 37), (8305, 1), (8319, 1), (8336, 13), (8560, 16), (9424, 26), (11388, 2),
    (42652, 2), (42864, 1), (42994, 3), (43000, 2), (43868, 4), (43881, 1), (67456, 1),
    (67459, 3), (67463, 42), (67506, 9), (122928, 62)]

/-- Capital letters that are none by their category: Roman numerals, and letters in circles and
boxes. -/
def otherCapital : List (Nat × Nat) :=
  [(8544, 16), (9398, 26), (127280, 26), (127312, 26), (127344, 26)]

/-- A letter, or a number or sign that counts as one. -/
def isLetter (c : Char) : Bool := inCategory "L" c || inCategory "Nl" c || inRanges otherLetters c

def isSmall (c : Char) : Bool := inCategory "Ll" c || inRanges otherSmall c

def isCapital (c : Char) : Bool := inCategory "Lu" c || inRanges otherCapital c

/-- A letter, mark, decimal digit, connecting punctuation or joining control. -/
def isWordChar (c : Char) : Bool :=
  isLetter c || inCategory "M" c || isDecimal c || inCategory "Pc" c || c.toNat == 0x200c ||
    c.toNat == 0x200d

end CloudAudit.Text
