import Concordance.Text.CodeTable

/-! The character classes of Unicode 14.0. They are exclusive because one table answers for all of
them. -/

namespace Concordance.Text

inductive CharClass
  | letter | mark | number | punctuation | separator | control | other
  deriving DecidableEq, Repr

namespace CharClass

private def class0000 : List (CodeRow CharClass) := [
  ⟨0x0, 0x1f, .control⟩, ⟨0x20, 0x20, .separator⟩, ⟨0x21, 0x23, .punctuation⟩,
  ⟨0x25, 0x2a, .punctuation⟩, ⟨0x2c, 0x2f, .punctuation⟩, ⟨0x30, 0x39, .number⟩,
  ⟨0x3a, 0x3b, .punctuation⟩, ⟨0x3f, 0x40, .punctuation⟩, ⟨0x41, 0x5a, .letter⟩,
  ⟨0x5b, 0x5d, .punctuation⟩, ⟨0x5f, 0x5f, .punctuation⟩, ⟨0x61, 0x7a, .letter⟩,
  ⟨0x7b, 0x7b, .punctuation⟩, ⟨0x7d, 0x7d, .punctuation⟩, ⟨0x7f, 0x9f, .control⟩,
  ⟨0xa0, 0xa0, .separator⟩, ⟨0xa1, 0xa1, .punctuation⟩, ⟨0xa7, 0xa7, .punctuation⟩,
  ⟨0xaa, 0xaa, .letter⟩, ⟨0xab, 0xab, .punctuation⟩, ⟨0xb2, 0xb3, .number⟩, ⟨0xb5, 0xb5, .letter⟩,
  ⟨0xb6, 0xb7, .punctuation⟩, ⟨0xb9, 0xb9, .number⟩, ⟨0xba, 0xba, .letter⟩,
  ⟨0xbb, 0xbb, .punctuation⟩, ⟨0xbc, 0xbe, .number⟩, ⟨0xbf, 0xbf, .punctuation⟩,
  ⟨0xc0, 0xd6, .letter⟩, ⟨0xd8, 0xf6, .letter⟩, ⟨0xf8, 0x2c1, .letter⟩, ⟨0x2c6, 0x2d1, .letter⟩,
  ⟨0x2e0, 0x2e4, .letter⟩, ⟨0x2ec, 0x2ec, .letter⟩, ⟨0x2ee, 0x2ee, .letter⟩, ⟨0x300, 0x36f, .mark⟩,
  ⟨0x370, 0x374, .letter⟩, ⟨0x376, 0x377, .letter⟩, ⟨0x37a, 0x37d, .letter⟩,
  ⟨0x37e, 0x37e, .punctuation⟩, ⟨0x37f, 0x37f, .letter⟩, ⟨0x386, 0x386, .letter⟩,
  ⟨0x387, 0x387, .punctuation⟩, ⟨0x388, 0x38a, .letter⟩, ⟨0x38c, 0x38c, .letter⟩,
  ⟨0x38e, 0x3a1, .letter⟩, ⟨0x3a3, 0x3f5, .letter⟩, ⟨0x3f7, 0x481, .letter⟩, ⟨0x483, 0x489, .mark⟩,
  ⟨0x48a, 0x52f, .letter⟩, ⟨0x531, 0x556, .letter⟩, ⟨0x559, 0x559, .letter⟩,
  ⟨0x55a, 0x55f, .punctuation⟩, ⟨0x560, 0x588, .letter⟩, ⟨0x589, 0x58a, .punctuation⟩]

private def class0590 : List (CodeRow CharClass) := [
  ⟨0x591, 0x5bd, .mark⟩, ⟨0x5be, 0x5be, .punctuation⟩, ⟨0x5bf, 0x5bf, .mark⟩,
  ⟨0x5c0, 0x5c0, .punctuation⟩, ⟨0x5c1, 0x5c2, .mark⟩, ⟨0x5c3, 0x5c3, .punctuation⟩,
  ⟨0x5c4, 0x5c5, .mark⟩, ⟨0x5c6, 0x5c6, .punctuation⟩, ⟨0x5c7, 0x5c7, .mark⟩,
  ⟨0x5d0, 0x5ea, .letter⟩, ⟨0x5ef, 0x5f2, .letter⟩, ⟨0x5f3, 0x5f4, .punctuation⟩,
  ⟨0x609, 0x60a, .punctuation⟩, ⟨0x60c, 0x60d, .punctuation⟩, ⟨0x610, 0x61a, .mark⟩,
  ⟨0x61b, 0x61b, .punctuation⟩, ⟨0x61d, 0x61f, .punctuation⟩, ⟨0x620, 0x64a, .letter⟩,
  ⟨0x64b, 0x65f, .mark⟩, ⟨0x660, 0x669, .number⟩, ⟨0x66a, 0x66d, .punctuation⟩,
  ⟨0x66e, 0x66f, .letter⟩, ⟨0x670, 0x670, .mark⟩, ⟨0x671, 0x6d3, .letter⟩,
  ⟨0x6d4, 0x6d4, .punctuation⟩, ⟨0x6d5, 0x6d5, .letter⟩, ⟨0x6d6, 0x6dc, .mark⟩,
  ⟨0x6df, 0x6e4, .mark⟩, ⟨0x6e5, 0x6e6, .letter⟩, ⟨0x6e7, 0x6e8, .mark⟩, ⟨0x6ea, 0x6ed, .mark⟩,
  ⟨0x6ee, 0x6ef, .letter⟩, ⟨0x6f0, 0x6f9, .number⟩, ⟨0x6fa, 0x6fc, .letter⟩,
  ⟨0x6ff, 0x6ff, .letter⟩, ⟨0x700, 0x70d, .punctuation⟩, ⟨0x710, 0x710, .letter⟩,
  ⟨0x711, 0x711, .mark⟩, ⟨0x712, 0x72f, .letter⟩, ⟨0x730, 0x74a, .mark⟩, ⟨0x74d, 0x7a5, .letter⟩,
  ⟨0x7a6, 0x7b0, .mark⟩, ⟨0x7b1, 0x7b1, .letter⟩, ⟨0x7c0, 0x7c9, .number⟩, ⟨0x7ca, 0x7ea, .letter⟩,
  ⟨0x7eb, 0x7f3, .mark⟩, ⟨0x7f4, 0x7f5, .letter⟩, ⟨0x7f7, 0x7f9, .punctuation⟩,
  ⟨0x7fa, 0x7fa, .letter⟩, ⟨0x7fd, 0x7fd, .mark⟩, ⟨0x800, 0x815, .letter⟩, ⟨0x816, 0x819, .mark⟩,
  ⟨0x81a, 0x81a, .letter⟩, ⟨0x81b, 0x823, .mark⟩, ⟨0x824, 0x824, .letter⟩, ⟨0x825, 0x827, .mark⟩,
  ⟨0x828, 0x828, .letter⟩, ⟨0x829, 0x82d, .mark⟩, ⟨0x830, 0x83e, .punctuation⟩,
  ⟨0x840, 0x858, .letter⟩, ⟨0x859, 0x85b, .mark⟩, ⟨0x85e, 0x85e, .punctuation⟩,
  ⟨0x860, 0x86a, .letter⟩, ⟨0x870, 0x887, .letter⟩, ⟨0x889, 0x88e, .letter⟩, ⟨0x898, 0x89f, .mark⟩,
  ⟨0x8a0, 0x8c9, .letter⟩, ⟨0x8ca, 0x8e1, .mark⟩, ⟨0x8e3, 0x903, .mark⟩]

private def class0904 : List (CodeRow CharClass) := [
  ⟨0x904, 0x939, .letter⟩, ⟨0x93a, 0x93c, .mark⟩, ⟨0x93d, 0x93d, .letter⟩, ⟨0x93e, 0x94f, .mark⟩,
  ⟨0x950, 0x950, .letter⟩, ⟨0x951, 0x957, .mark⟩, ⟨0x958, 0x961, .letter⟩, ⟨0x962, 0x963, .mark⟩,
  ⟨0x964, 0x965, .punctuation⟩, ⟨0x966, 0x96f, .number⟩, ⟨0x970, 0x970, .punctuation⟩,
  ⟨0x971, 0x980, .letter⟩, ⟨0x981, 0x983, .mark⟩, ⟨0x985, 0x98c, .letter⟩, ⟨0x98f, 0x990, .letter⟩,
  ⟨0x993, 0x9a8, .letter⟩, ⟨0x9aa, 0x9b0, .letter⟩, ⟨0x9b2, 0x9b2, .letter⟩,
  ⟨0x9b6, 0x9b9, .letter⟩, ⟨0x9bc, 0x9bc, .mark⟩, ⟨0x9bd, 0x9bd, .letter⟩, ⟨0x9be, 0x9c4, .mark⟩,
  ⟨0x9c7, 0x9c8, .mark⟩, ⟨0x9cb, 0x9cd, .mark⟩, ⟨0x9ce, 0x9ce, .letter⟩, ⟨0x9d7, 0x9d7, .mark⟩,
  ⟨0x9dc, 0x9dd, .letter⟩, ⟨0x9df, 0x9e1, .letter⟩, ⟨0x9e2, 0x9e3, .mark⟩, ⟨0x9e6, 0x9ef, .number⟩,
  ⟨0x9f0, 0x9f1, .letter⟩, ⟨0x9f4, 0x9f9, .number⟩, ⟨0x9fc, 0x9fc, .letter⟩,
  ⟨0x9fd, 0x9fd, .punctuation⟩, ⟨0x9fe, 0x9fe, .mark⟩, ⟨0xa01, 0xa03, .mark⟩,
  ⟨0xa05, 0xa0a, .letter⟩, ⟨0xa0f, 0xa10, .letter⟩, ⟨0xa13, 0xa28, .letter⟩,
  ⟨0xa2a, 0xa30, .letter⟩, ⟨0xa32, 0xa33, .letter⟩, ⟨0xa35, 0xa36, .letter⟩,
  ⟨0xa38, 0xa39, .letter⟩, ⟨0xa3c, 0xa3c, .mark⟩, ⟨0xa3e, 0xa42, .mark⟩, ⟨0xa47, 0xa48, .mark⟩,
  ⟨0xa4b, 0xa4d, .mark⟩, ⟨0xa51, 0xa51, .mark⟩, ⟨0xa59, 0xa5c, .letter⟩, ⟨0xa5e, 0xa5e, .letter⟩,
  ⟨0xa66, 0xa6f, .number⟩, ⟨0xa70, 0xa71, .mark⟩, ⟨0xa72, 0xa74, .letter⟩, ⟨0xa75, 0xa75, .mark⟩,
  ⟨0xa76, 0xa76, .punctuation⟩, ⟨0xa81, 0xa83, .mark⟩, ⟨0xa85, 0xa8d, .letter⟩,
  ⟨0xa8f, 0xa91, .letter⟩, ⟨0xa93, 0xaa8, .letter⟩, ⟨0xaaa, 0xab0, .letter⟩,
  ⟨0xab2, 0xab3, .letter⟩, ⟨0xab5, 0xab9, .letter⟩, ⟨0xabc, 0xabc, .mark⟩, ⟨0xabd, 0xabd, .letter⟩,
  ⟨0xabe, 0xac5, .mark⟩, ⟨0xac7, 0xac9, .mark⟩, ⟨0xacb, 0xacd, .mark⟩, ⟨0xad0, 0xad0, .letter⟩,
  ⟨0xae0, 0xae1, .letter⟩, ⟨0xae2, 0xae3, .mark⟩, ⟨0xae6, 0xaef, .number⟩,
  ⟨0xaf0, 0xaf0, .punctuation⟩, ⟨0xaf9, 0xaf9, .letter⟩, ⟨0xafa, 0xaff, .mark⟩]

private def class0B00 : List (CodeRow CharClass) := [
  ⟨0xb01, 0xb03, .mark⟩, ⟨0xb05, 0xb0c, .letter⟩, ⟨0xb0f, 0xb10, .letter⟩, ⟨0xb13, 0xb28, .letter⟩,
  ⟨0xb2a, 0xb30, .letter⟩, ⟨0xb32, 0xb33, .letter⟩, ⟨0xb35, 0xb39, .letter⟩, ⟨0xb3c, 0xb3c, .mark⟩,
  ⟨0xb3d, 0xb3d, .letter⟩, ⟨0xb3e, 0xb44, .mark⟩, ⟨0xb47, 0xb48, .mark⟩, ⟨0xb4b, 0xb4d, .mark⟩,
  ⟨0xb55, 0xb57, .mark⟩, ⟨0xb5c, 0xb5d, .letter⟩, ⟨0xb5f, 0xb61, .letter⟩, ⟨0xb62, 0xb63, .mark⟩,
  ⟨0xb66, 0xb6f, .number⟩, ⟨0xb71, 0xb71, .letter⟩, ⟨0xb72, 0xb77, .number⟩, ⟨0xb82, 0xb82, .mark⟩,
  ⟨0xb83, 0xb83, .letter⟩, ⟨0xb85, 0xb8a, .letter⟩, ⟨0xb8e, 0xb90, .letter⟩,
  ⟨0xb92, 0xb95, .letter⟩, ⟨0xb99, 0xb9a, .letter⟩, ⟨0xb9c, 0xb9c, .letter⟩,
  ⟨0xb9e, 0xb9f, .letter⟩, ⟨0xba3, 0xba4, .letter⟩, ⟨0xba8, 0xbaa, .letter⟩,
  ⟨0xbae, 0xbb9, .letter⟩, ⟨0xbbe, 0xbc2, .mark⟩, ⟨0xbc6, 0xbc8, .mark⟩, ⟨0xbca, 0xbcd, .mark⟩,
  ⟨0xbd0, 0xbd0, .letter⟩, ⟨0xbd7, 0xbd7, .mark⟩, ⟨0xbe6, 0xbf2, .number⟩, ⟨0xc00, 0xc04, .mark⟩,
  ⟨0xc05, 0xc0c, .letter⟩, ⟨0xc0e, 0xc10, .letter⟩, ⟨0xc12, 0xc28, .letter⟩,
  ⟨0xc2a, 0xc39, .letter⟩, ⟨0xc3c, 0xc3c, .mark⟩, ⟨0xc3d, 0xc3d, .letter⟩, ⟨0xc3e, 0xc44, .mark⟩,
  ⟨0xc46, 0xc48, .mark⟩, ⟨0xc4a, 0xc4d, .mark⟩, ⟨0xc55, 0xc56, .mark⟩, ⟨0xc58, 0xc5a, .letter⟩,
  ⟨0xc5d, 0xc5d, .letter⟩, ⟨0xc60, 0xc61, .letter⟩, ⟨0xc62, 0xc63, .mark⟩, ⟨0xc66, 0xc6f, .number⟩,
  ⟨0xc77, 0xc77, .punctuation⟩, ⟨0xc78, 0xc7e, .number⟩, ⟨0xc80, 0xc80, .letter⟩,
  ⟨0xc81, 0xc83, .mark⟩, ⟨0xc84, 0xc84, .punctuation⟩, ⟨0xc85, 0xc8c, .letter⟩,
  ⟨0xc8e, 0xc90, .letter⟩, ⟨0xc92, 0xca8, .letter⟩, ⟨0xcaa, 0xcb3, .letter⟩,
  ⟨0xcb5, 0xcb9, .letter⟩, ⟨0xcbc, 0xcbc, .mark⟩, ⟨0xcbd, 0xcbd, .letter⟩, ⟨0xcbe, 0xcc4, .mark⟩,
  ⟨0xcc6, 0xcc8, .mark⟩, ⟨0xcca, 0xccd, .mark⟩, ⟨0xcd5, 0xcd6, .mark⟩, ⟨0xcdd, 0xcde, .letter⟩,
  ⟨0xce0, 0xce1, .letter⟩, ⟨0xce2, 0xce3, .mark⟩, ⟨0xce6, 0xcef, .number⟩, ⟨0xcf1, 0xcf2, .letter⟩]

private def class0D00 : List (CodeRow CharClass) := [
  ⟨0xd00, 0xd03, .mark⟩, ⟨0xd04, 0xd0c, .letter⟩, ⟨0xd0e, 0xd10, .letter⟩, ⟨0xd12, 0xd3a, .letter⟩,
  ⟨0xd3b, 0xd3c, .mark⟩, ⟨0xd3d, 0xd3d, .letter⟩, ⟨0xd3e, 0xd44, .mark⟩, ⟨0xd46, 0xd48, .mark⟩,
  ⟨0xd4a, 0xd4d, .mark⟩, ⟨0xd4e, 0xd4e, .letter⟩, ⟨0xd54, 0xd56, .letter⟩, ⟨0xd57, 0xd57, .mark⟩,
  ⟨0xd58, 0xd5e, .number⟩, ⟨0xd5f, 0xd61, .letter⟩, ⟨0xd62, 0xd63, .mark⟩, ⟨0xd66, 0xd78, .number⟩,
  ⟨0xd7a, 0xd7f, .letter⟩, ⟨0xd81, 0xd83, .mark⟩, ⟨0xd85, 0xd96, .letter⟩, ⟨0xd9a, 0xdb1, .letter⟩,
  ⟨0xdb3, 0xdbb, .letter⟩, ⟨0xdbd, 0xdbd, .letter⟩, ⟨0xdc0, 0xdc6, .letter⟩, ⟨0xdca, 0xdca, .mark⟩,
  ⟨0xdcf, 0xdd4, .mark⟩, ⟨0xdd6, 0xdd6, .mark⟩, ⟨0xdd8, 0xddf, .mark⟩, ⟨0xde6, 0xdef, .number⟩,
  ⟨0xdf2, 0xdf3, .mark⟩, ⟨0xdf4, 0xdf4, .punctuation⟩, ⟨0xe01, 0xe30, .letter⟩,
  ⟨0xe31, 0xe31, .mark⟩, ⟨0xe32, 0xe33, .letter⟩, ⟨0xe34, 0xe3a, .mark⟩, ⟨0xe40, 0xe46, .letter⟩,
  ⟨0xe47, 0xe4e, .mark⟩, ⟨0xe4f, 0xe4f, .punctuation⟩, ⟨0xe50, 0xe59, .number⟩,
  ⟨0xe5a, 0xe5b, .punctuation⟩, ⟨0xe81, 0xe82, .letter⟩, ⟨0xe84, 0xe84, .letter⟩,
  ⟨0xe86, 0xe8a, .letter⟩, ⟨0xe8c, 0xea3, .letter⟩, ⟨0xea5, 0xea5, .letter⟩,
  ⟨0xea7, 0xeb0, .letter⟩, ⟨0xeb1, 0xeb1, .mark⟩, ⟨0xeb2, 0xeb3, .letter⟩, ⟨0xeb4, 0xebc, .mark⟩,
  ⟨0xebd, 0xebd, .letter⟩, ⟨0xec0, 0xec4, .letter⟩, ⟨0xec6, 0xec6, .letter⟩, ⟨0xec8, 0xecd, .mark⟩,
  ⟨0xed0, 0xed9, .number⟩, ⟨0xedc, 0xedf, .letter⟩, ⟨0xf00, 0xf00, .letter⟩,
  ⟨0xf04, 0xf12, .punctuation⟩, ⟨0xf14, 0xf14, .punctuation⟩, ⟨0xf18, 0xf19, .mark⟩,
  ⟨0xf20, 0xf33, .number⟩, ⟨0xf35, 0xf35, .mark⟩, ⟨0xf37, 0xf37, .mark⟩, ⟨0xf39, 0xf39, .mark⟩,
  ⟨0xf3a, 0xf3d, .punctuation⟩, ⟨0xf3e, 0xf3f, .mark⟩, ⟨0xf40, 0xf47, .letter⟩,
  ⟨0xf49, 0xf6c, .letter⟩, ⟨0xf71, 0xf84, .mark⟩, ⟨0xf85, 0xf85, .punctuation⟩,
  ⟨0xf86, 0xf87, .mark⟩, ⟨0xf88, 0xf8c, .letter⟩, ⟨0xf8d, 0xf97, .mark⟩, ⟨0xf99, 0xfbc, .mark⟩,
  ⟨0xfc6, 0xfc6, .mark⟩, ⟨0xfd0, 0xfd4, .punctuation⟩, ⟨0xfd9, 0xfda, .punctuation⟩]

private def class1000 : List (CodeRow CharClass) := [
  ⟨0x1000, 0x102a, .letter⟩, ⟨0x102b, 0x103e, .mark⟩, ⟨0x103f, 0x103f, .letter⟩,
  ⟨0x1040, 0x1049, .number⟩, ⟨0x104a, 0x104f, .punctuation⟩, ⟨0x1050, 0x1055, .letter⟩,
  ⟨0x1056, 0x1059, .mark⟩, ⟨0x105a, 0x105d, .letter⟩, ⟨0x105e, 0x1060, .mark⟩,
  ⟨0x1061, 0x1061, .letter⟩, ⟨0x1062, 0x1064, .mark⟩, ⟨0x1065, 0x1066, .letter⟩,
  ⟨0x1067, 0x106d, .mark⟩, ⟨0x106e, 0x1070, .letter⟩, ⟨0x1071, 0x1074, .mark⟩,
  ⟨0x1075, 0x1081, .letter⟩, ⟨0x1082, 0x108d, .mark⟩, ⟨0x108e, 0x108e, .letter⟩,
  ⟨0x108f, 0x108f, .mark⟩, ⟨0x1090, 0x1099, .number⟩, ⟨0x109a, 0x109d, .mark⟩,
  ⟨0x10a0, 0x10c5, .letter⟩, ⟨0x10c7, 0x10c7, .letter⟩, ⟨0x10cd, 0x10cd, .letter⟩,
  ⟨0x10d0, 0x10fa, .letter⟩, ⟨0x10fb, 0x10fb, .punctuation⟩, ⟨0x10fc, 0x1248, .letter⟩,
  ⟨0x124a, 0x124d, .letter⟩, ⟨0x1250, 0x1256, .letter⟩, ⟨0x1258, 0x1258, .letter⟩,
  ⟨0x125a, 0x125d, .letter⟩, ⟨0x1260, 0x1288, .letter⟩, ⟨0x128a, 0x128d, .letter⟩,
  ⟨0x1290, 0x12b0, .letter⟩, ⟨0x12b2, 0x12b5, .letter⟩, ⟨0x12b8, 0x12be, .letter⟩,
  ⟨0x12c0, 0x12c0, .letter⟩, ⟨0x12c2, 0x12c5, .letter⟩, ⟨0x12c8, 0x12d6, .letter⟩,
  ⟨0x12d8, 0x1310, .letter⟩, ⟨0x1312, 0x1315, .letter⟩, ⟨0x1318, 0x135a, .letter⟩,
  ⟨0x135d, 0x135f, .mark⟩, ⟨0x1360, 0x1368, .punctuation⟩, ⟨0x1369, 0x137c, .number⟩,
  ⟨0x1380, 0x138f, .letter⟩, ⟨0x13a0, 0x13f5, .letter⟩, ⟨0x13f8, 0x13fd, .letter⟩,
  ⟨0x1400, 0x1400, .punctuation⟩, ⟨0x1401, 0x166c, .letter⟩, ⟨0x166e, 0x166e, .punctuation⟩,
  ⟨0x166f, 0x167f, .letter⟩, ⟨0x1680, 0x1680, .separator⟩, ⟨0x1681, 0x169a, .letter⟩,
  ⟨0x169b, 0x169c, .punctuation⟩, ⟨0x16a0, 0x16ea, .letter⟩, ⟨0x16eb, 0x16ed, .punctuation⟩,
  ⟨0x16ee, 0x16f0, .number⟩, ⟨0x16f1, 0x16f8, .letter⟩]

private def class1700 : List (CodeRow CharClass) := [
  ⟨0x1700, 0x1711, .letter⟩, ⟨0x1712, 0x1715, .mark⟩, ⟨0x171f, 0x1731, .letter⟩,
  ⟨0x1732, 0x1734, .mark⟩, ⟨0x1735, 0x1736, .punctuation⟩, ⟨0x1740, 0x1751, .letter⟩,
  ⟨0x1752, 0x1753, .mark⟩, ⟨0x1760, 0x176c, .letter⟩, ⟨0x176e, 0x1770, .letter⟩,
  ⟨0x1772, 0x1773, .mark⟩, ⟨0x1780, 0x17b3, .letter⟩, ⟨0x17b4, 0x17d3, .mark⟩,
  ⟨0x17d4, 0x17d6, .punctuation⟩, ⟨0x17d7, 0x17d7, .letter⟩, ⟨0x17d8, 0x17da, .punctuation⟩,
  ⟨0x17dc, 0x17dc, .letter⟩, ⟨0x17dd, 0x17dd, .mark⟩, ⟨0x17e0, 0x17e9, .number⟩,
  ⟨0x17f0, 0x17f9, .number⟩, ⟨0x1800, 0x180a, .punctuation⟩, ⟨0x180b, 0x180d, .mark⟩,
  ⟨0x180f, 0x180f, .mark⟩, ⟨0x1810, 0x1819, .number⟩, ⟨0x1820, 0x1878, .letter⟩,
  ⟨0x1880, 0x1884, .letter⟩, ⟨0x1885, 0x1886, .mark⟩, ⟨0x1887, 0x18a8, .letter⟩,
  ⟨0x18a9, 0x18a9, .mark⟩, ⟨0x18aa, 0x18aa, .letter⟩, ⟨0x18b0, 0x18f5, .letter⟩,
  ⟨0x1900, 0x191e, .letter⟩, ⟨0x1920, 0x192b, .mark⟩, ⟨0x1930, 0x193b, .mark⟩,
  ⟨0x1944, 0x1945, .punctuation⟩, ⟨0x1946, 0x194f, .number⟩, ⟨0x1950, 0x196d, .letter⟩,
  ⟨0x1970, 0x1974, .letter⟩, ⟨0x1980, 0x19ab, .letter⟩, ⟨0x19b0, 0x19c9, .letter⟩,
  ⟨0x19d0, 0x19da, .number⟩, ⟨0x1a00, 0x1a16, .letter⟩, ⟨0x1a17, 0x1a1b, .mark⟩,
  ⟨0x1a1e, 0x1a1f, .punctuation⟩, ⟨0x1a20, 0x1a54, .letter⟩, ⟨0x1a55, 0x1a5e, .mark⟩,
  ⟨0x1a60, 0x1a7c, .mark⟩, ⟨0x1a7f, 0x1a7f, .mark⟩, ⟨0x1a80, 0x1a89, .number⟩,
  ⟨0x1a90, 0x1a99, .number⟩, ⟨0x1aa0, 0x1aa6, .punctuation⟩, ⟨0x1aa7, 0x1aa7, .letter⟩,
  ⟨0x1aa8, 0x1aad, .punctuation⟩, ⟨0x1ab0, 0x1ace, .mark⟩, ⟨0x1b00, 0x1b04, .mark⟩,
  ⟨0x1b05, 0x1b33, .letter⟩, ⟨0x1b34, 0x1b44, .mark⟩, ⟨0x1b45, 0x1b4c, .letter⟩,
  ⟨0x1b50, 0x1b59, .number⟩, ⟨0x1b5a, 0x1b60, .punctuation⟩, ⟨0x1b6b, 0x1b73, .mark⟩,
  ⟨0x1b7d, 0x1b7e, .punctuation⟩, ⟨0x1b80, 0x1b82, .mark⟩, ⟨0x1b83, 0x1ba0, .letter⟩,
  ⟨0x1ba1, 0x1bad, .mark⟩, ⟨0x1bae, 0x1baf, .letter⟩, ⟨0x1bb0, 0x1bb9, .number⟩,
  ⟨0x1bba, 0x1be5, .letter⟩, ⟨0x1be6, 0x1bf3, .mark⟩, ⟨0x1bfc, 0x1bff, .punctuation⟩,
  ⟨0x1c00, 0x1c23, .letter⟩, ⟨0x1c24, 0x1c37, .mark⟩, ⟨0x1c3b, 0x1c3f, .punctuation⟩,
  ⟨0x1c40, 0x1c49, .number⟩, ⟨0x1c4d, 0x1c4f, .letter⟩, ⟨0x1c50, 0x1c59, .number⟩,
  ⟨0x1c5a, 0x1c7d, .letter⟩, ⟨0x1c7e, 0x1c7f, .punctuation⟩, ⟨0x1c80, 0x1c88, .letter⟩,
  ⟨0x1c90, 0x1cba, .letter⟩, ⟨0x1cbd, 0x1cbf, .letter⟩, ⟨0x1cc0, 0x1cc7, .punctuation⟩,
  ⟨0x1cd0, 0x1cd2, .mark⟩, ⟨0x1cd3, 0x1cd3, .punctuation⟩, ⟨0x1cd4, 0x1ce8, .mark⟩,
  ⟨0x1ce9, 0x1cec, .letter⟩, ⟨0x1ced, 0x1ced, .mark⟩, ⟨0x1cee, 0x1cf3, .letter⟩,
  ⟨0x1cf4, 0x1cf4, .mark⟩, ⟨0x1cf5, 0x1cf6, .letter⟩, ⟨0x1cf7, 0x1cf9, .mark⟩,
  ⟨0x1cfa, 0x1cfa, .letter⟩, ⟨0x1d00, 0x1dbf, .letter⟩, ⟨0x1dc0, 0x1dff, .mark⟩]

private def class1E00 : List (CodeRow CharClass) := [
  ⟨0x1e00, 0x1f15, .letter⟩, ⟨0x1f18, 0x1f1d, .letter⟩, ⟨0x1f20, 0x1f45, .letter⟩,
  ⟨0x1f48, 0x1f4d, .letter⟩, ⟨0x1f50, 0x1f57, .letter⟩, ⟨0x1f59, 0x1f59, .letter⟩,
  ⟨0x1f5b, 0x1f5b, .letter⟩, ⟨0x1f5d, 0x1f5d, .letter⟩, ⟨0x1f5f, 0x1f7d, .letter⟩,
  ⟨0x1f80, 0x1fb4, .letter⟩, ⟨0x1fb6, 0x1fbc, .letter⟩, ⟨0x1fbe, 0x1fbe, .letter⟩,
  ⟨0x1fc2, 0x1fc4, .letter⟩, ⟨0x1fc6, 0x1fcc, .letter⟩, ⟨0x1fd0, 0x1fd3, .letter⟩,
  ⟨0x1fd6, 0x1fdb, .letter⟩, ⟨0x1fe0, 0x1fec, .letter⟩, ⟨0x1ff2, 0x1ff4, .letter⟩,
  ⟨0x1ff6, 0x1ffc, .letter⟩, ⟨0x2000, 0x200a, .separator⟩, ⟨0x2010, 0x2027, .punctuation⟩,
  ⟨0x2028, 0x2029, .separator⟩, ⟨0x202f, 0x202f, .separator⟩, ⟨0x2030, 0x2043, .punctuation⟩,
  ⟨0x2045, 0x2051, .punctuation⟩, ⟨0x2053, 0x205e, .punctuation⟩, ⟨0x205f, 0x205f, .separator⟩,
  ⟨0x2070, 0x2070, .number⟩, ⟨0x2071, 0x2071, .letter⟩, ⟨0x2074, 0x2079, .number⟩,
  ⟨0x207d, 0x207e, .punctuation⟩, ⟨0x207f, 0x207f, .letter⟩, ⟨0x2080, 0x2089, .number⟩,
  ⟨0x208d, 0x208e, .punctuation⟩, ⟨0x2090, 0x209c, .letter⟩, ⟨0x20d0, 0x20f0, .mark⟩,
  ⟨0x2102, 0x2102, .letter⟩, ⟨0x2107, 0x2107, .letter⟩, ⟨0x210a, 0x2113, .letter⟩,
  ⟨0x2115, 0x2115, .letter⟩, ⟨0x2119, 0x211d, .letter⟩, ⟨0x2124, 0x2124, .letter⟩,
  ⟨0x2126, 0x2126, .letter⟩, ⟨0x2128, 0x2128, .letter⟩, ⟨0x212a, 0x212d, .letter⟩,
  ⟨0x212f, 0x2139, .letter⟩, ⟨0x213c, 0x213f, .letter⟩, ⟨0x2145, 0x2149, .letter⟩,
  ⟨0x214e, 0x214e, .letter⟩, ⟨0x2150, 0x2182, .number⟩, ⟨0x2183, 0x2184, .letter⟩,
  ⟨0x2185, 0x2189, .number⟩, ⟨0x2308, 0x230b, .punctuation⟩, ⟨0x2329, 0x232a, .punctuation⟩,
  ⟨0x2460, 0x249b, .number⟩, ⟨0x24ea, 0x24ff, .number⟩, ⟨0x2768, 0x2775, .punctuation⟩,
  ⟨0x2776, 0x2793, .number⟩, ⟨0x27c5, 0x27c6, .punctuation⟩, ⟨0x27e6, 0x27ef, .punctuation⟩,
  ⟨0x2983, 0x2998, .punctuation⟩, ⟨0x29d8, 0x29db, .punctuation⟩, ⟨0x29fc, 0x29fd, .punctuation⟩]

private def class2C00 : List (CodeRow CharClass) := [
  ⟨0x2c00, 0x2ce4, .letter⟩, ⟨0x2ceb, 0x2cee, .letter⟩, ⟨0x2cef, 0x2cf1, .mark⟩,
  ⟨0x2cf2, 0x2cf3, .letter⟩, ⟨0x2cf9, 0x2cfc, .punctuation⟩, ⟨0x2cfd, 0x2cfd, .number⟩,
  ⟨0x2cfe, 0x2cff, .punctuation⟩, ⟨0x2d00, 0x2d25, .letter⟩, ⟨0x2d27, 0x2d27, .letter⟩,
  ⟨0x2d2d, 0x2d2d, .letter⟩, ⟨0x2d30, 0x2d67, .letter⟩, ⟨0x2d6f, 0x2d6f, .letter⟩,
  ⟨0x2d70, 0x2d70, .punctuation⟩, ⟨0x2d7f, 0x2d7f, .mark⟩, ⟨0x2d80, 0x2d96, .letter⟩,
  ⟨0x2da0, 0x2da6, .letter⟩, ⟨0x2da8, 0x2dae, .letter⟩, ⟨0x2db0, 0x2db6, .letter⟩,
  ⟨0x2db8, 0x2dbe, .letter⟩, ⟨0x2dc0, 0x2dc6, .letter⟩, ⟨0x2dc8, 0x2dce, .letter⟩,
  ⟨0x2dd0, 0x2dd6, .letter⟩, ⟨0x2dd8, 0x2dde, .letter⟩, ⟨0x2de0, 0x2dff, .mark⟩,
  ⟨0x2e00, 0x2e2e, .punctuation⟩, ⟨0x2e2f, 0x2e2f, .letter⟩, ⟨0x2e30, 0x2e4f, .punctuation⟩,
  ⟨0x2e52, 0x2e5d, .punctuation⟩, ⟨0x3000, 0x3000, .separator⟩, ⟨0x3001, 0x3003, .punctuation⟩,
  ⟨0x3005, 0x3006, .letter⟩, ⟨0x3007, 0x3007, .number⟩, ⟨0x3008, 0x3011, .punctuation⟩,
  ⟨0x3014, 0x301f, .punctuation⟩, ⟨0x3021, 0x3029, .number⟩, ⟨0x302a, 0x302f, .mark⟩,
  ⟨0x3030, 0x3030, .punctuation⟩, ⟨0x3031, 0x3035, .letter⟩, ⟨0x3038, 0x303a, .number⟩,
  ⟨0x303b, 0x303c, .letter⟩, ⟨0x303d, 0x303d, .punctuation⟩, ⟨0x3041, 0x3096, .letter⟩,
  ⟨0x3099, 0x309a, .mark⟩, ⟨0x309d, 0x309f, .letter⟩, ⟨0x30a0, 0x30a0, .punctuation⟩,
  ⟨0x30a1, 0x30fa, .letter⟩, ⟨0x30fb, 0x30fb, .punctuation⟩, ⟨0x30fc, 0x30ff, .letter⟩,
  ⟨0x3105, 0x312f, .letter⟩, ⟨0x3131, 0x318e, .letter⟩, ⟨0x3192, 0x3195, .number⟩,
  ⟨0x31a0, 0x31bf, .letter⟩, ⟨0x31f0, 0x31ff, .letter⟩, ⟨0x3220, 0x3229, .number⟩,
  ⟨0x3248, 0x324f, .number⟩, ⟨0x3251, 0x325f, .number⟩, ⟨0x3280, 0x3289, .number⟩,
  ⟨0x32b1, 0x32bf, .number⟩]

private def class3400 : List (CodeRow CharClass) := [
  ⟨0x3400, 0x4dbf, .letter⟩, ⟨0x4e00, 0xa48c, .letter⟩, ⟨0xa4d0, 0xa4fd, .letter⟩,
  ⟨0xa4fe, 0xa4ff, .punctuation⟩, ⟨0xa500, 0xa60c, .letter⟩, ⟨0xa60d, 0xa60f, .punctuation⟩,
  ⟨0xa610, 0xa61f, .letter⟩, ⟨0xa620, 0xa629, .number⟩, ⟨0xa62a, 0xa62b, .letter⟩,
  ⟨0xa640, 0xa66e, .letter⟩, ⟨0xa66f, 0xa672, .mark⟩, ⟨0xa673, 0xa673, .punctuation⟩,
  ⟨0xa674, 0xa67d, .mark⟩, ⟨0xa67e, 0xa67e, .punctuation⟩, ⟨0xa67f, 0xa69d, .letter⟩,
  ⟨0xa69e, 0xa69f, .mark⟩, ⟨0xa6a0, 0xa6e5, .letter⟩, ⟨0xa6e6, 0xa6ef, .number⟩,
  ⟨0xa6f0, 0xa6f1, .mark⟩, ⟨0xa6f2, 0xa6f7, .punctuation⟩, ⟨0xa717, 0xa71f, .letter⟩,
  ⟨0xa722, 0xa788, .letter⟩, ⟨0xa78b, 0xa7ca, .letter⟩, ⟨0xa7d0, 0xa7d1, .letter⟩,
  ⟨0xa7d3, 0xa7d3, .letter⟩, ⟨0xa7d5, 0xa7d9, .letter⟩, ⟨0xa7f2, 0xa801, .letter⟩,
  ⟨0xa802, 0xa802, .mark⟩, ⟨0xa803, 0xa805, .letter⟩, ⟨0xa806, 0xa806, .mark⟩,
  ⟨0xa807, 0xa80a, .letter⟩, ⟨0xa80b, 0xa80b, .mark⟩, ⟨0xa80c, 0xa822, .letter⟩,
  ⟨0xa823, 0xa827, .mark⟩, ⟨0xa82c, 0xa82c, .mark⟩, ⟨0xa830, 0xa835, .number⟩,
  ⟨0xa840, 0xa873, .letter⟩, ⟨0xa874, 0xa877, .punctuation⟩, ⟨0xa880, 0xa881, .mark⟩,
  ⟨0xa882, 0xa8b3, .letter⟩, ⟨0xa8b4, 0xa8c5, .mark⟩, ⟨0xa8ce, 0xa8cf, .punctuation⟩,
  ⟨0xa8d0, 0xa8d9, .number⟩, ⟨0xa8e0, 0xa8f1, .mark⟩, ⟨0xa8f2, 0xa8f7, .letter⟩,
  ⟨0xa8f8, 0xa8fa, .punctuation⟩, ⟨0xa8fb, 0xa8fb, .letter⟩, ⟨0xa8fc, 0xa8fc, .punctuation⟩,
  ⟨0xa8fd, 0xa8fe, .letter⟩, ⟨0xa8ff, 0xa8ff, .mark⟩, ⟨0xa900, 0xa909, .number⟩,
  ⟨0xa90a, 0xa925, .letter⟩, ⟨0xa926, 0xa92d, .mark⟩, ⟨0xa92e, 0xa92f, .punctuation⟩,
  ⟨0xa930, 0xa946, .letter⟩, ⟨0xa947, 0xa953, .mark⟩, ⟨0xa95f, 0xa95f, .punctuation⟩,
  ⟨0xa960, 0xa97c, .letter⟩, ⟨0xa980, 0xa983, .mark⟩, ⟨0xa984, 0xa9b2, .letter⟩,
  ⟨0xa9b3, 0xa9c0, .mark⟩, ⟨0xa9c1, 0xa9cd, .punctuation⟩, ⟨0xa9cf, 0xa9cf, .letter⟩,
  ⟨0xa9d0, 0xa9d9, .number⟩, ⟨0xa9de, 0xa9df, .punctuation⟩, ⟨0xa9e0, 0xa9e4, .letter⟩,
  ⟨0xa9e5, 0xa9e5, .mark⟩, ⟨0xa9e6, 0xa9ef, .letter⟩, ⟨0xa9f0, 0xa9f9, .number⟩,
  ⟨0xa9fa, 0xa9fe, .letter⟩, ⟨0xaa00, 0xaa28, .letter⟩, ⟨0xaa29, 0xaa36, .mark⟩,
  ⟨0xaa40, 0xaa42, .letter⟩, ⟨0xaa43, 0xaa43, .mark⟩, ⟨0xaa44, 0xaa4b, .letter⟩,
  ⟨0xaa4c, 0xaa4d, .mark⟩, ⟨0xaa50, 0xaa59, .number⟩, ⟨0xaa5c, 0xaa5f, .punctuation⟩,
  ⟨0xaa60, 0xaa76, .letter⟩, ⟨0xaa7a, 0xaa7a, .letter⟩, ⟨0xaa7b, 0xaa7d, .mark⟩,
  ⟨0xaa7e, 0xaaaf, .letter⟩, ⟨0xaab0, 0xaab0, .mark⟩, ⟨0xaab1, 0xaab1, .letter⟩,
  ⟨0xaab2, 0xaab4, .mark⟩, ⟨0xaab5, 0xaab6, .letter⟩, ⟨0xaab7, 0xaab8, .mark⟩,
  ⟨0xaab9, 0xaabd, .letter⟩, ⟨0xaabe, 0xaabf, .mark⟩, ⟨0xaac0, 0xaac0, .letter⟩,
  ⟨0xaac1, 0xaac1, .mark⟩, ⟨0xaac2, 0xaac2, .letter⟩, ⟨0xaadb, 0xaadd, .letter⟩,
  ⟨0xaade, 0xaadf, .punctuation⟩, ⟨0xaae0, 0xaaea, .letter⟩, ⟨0xaaeb, 0xaaef, .mark⟩,
  ⟨0xaaf0, 0xaaf1, .punctuation⟩, ⟨0xaaf2, 0xaaf4, .letter⟩, ⟨0xaaf5, 0xaaf6, .mark⟩]

private def classAB00 : List (CodeRow CharClass) := [
  ⟨0xab01, 0xab06, .letter⟩, ⟨0xab09, 0xab0e, .letter⟩, ⟨0xab11, 0xab16, .letter⟩,
  ⟨0xab20, 0xab26, .letter⟩, ⟨0xab28, 0xab2e, .letter⟩, ⟨0xab30, 0xab5a, .letter⟩,
  ⟨0xab5c, 0xab69, .letter⟩, ⟨0xab70, 0xabe2, .letter⟩, ⟨0xabe3, 0xabea, .mark⟩,
  ⟨0xabeb, 0xabeb, .punctuation⟩, ⟨0xabec, 0xabed, .mark⟩, ⟨0xabf0, 0xabf9, .number⟩,
  ⟨0xac00, 0xd7a3, .letter⟩, ⟨0xd7b0, 0xd7c6, .letter⟩, ⟨0xd7cb, 0xd7fb, .letter⟩,
  ⟨0xf900, 0xfa6d, .letter⟩, ⟨0xfa70, 0xfad9, .letter⟩, ⟨0xfb00, 0xfb06, .letter⟩,
  ⟨0xfb13, 0xfb17, .letter⟩, ⟨0xfb1d, 0xfb1d, .letter⟩, ⟨0xfb1e, 0xfb1e, .mark⟩,
  ⟨0xfb1f, 0xfb28, .letter⟩, ⟨0xfb2a, 0xfb36, .letter⟩, ⟨0xfb38, 0xfb3c, .letter⟩,
  ⟨0xfb3e, 0xfb3e, .letter⟩, ⟨0xfb40, 0xfb41, .letter⟩, ⟨0xfb43, 0xfb44, .letter⟩,
  ⟨0xfb46, 0xfbb1, .letter⟩, ⟨0xfbd3, 0xfd3d, .letter⟩, ⟨0xfd3e, 0xfd3f, .punctuation⟩,
  ⟨0xfd50, 0xfd8f, .letter⟩, ⟨0xfd92, 0xfdc7, .letter⟩, ⟨0xfdf0, 0xfdfb, .letter⟩]

private def classFE00 : List (CodeRow CharClass) := [
  ⟨0xfe00, 0xfe0f, .mark⟩, ⟨0xfe10, 0xfe19, .punctuation⟩, ⟨0xfe20, 0xfe2f, .mark⟩,
  ⟨0xfe30, 0xfe52, .punctuation⟩, ⟨0xfe54, 0xfe61, .punctuation⟩, ⟨0xfe63, 0xfe63, .punctuation⟩,
  ⟨0xfe68, 0xfe68, .punctuation⟩, ⟨0xfe6a, 0xfe6b, .punctuation⟩, ⟨0xfe70, 0xfe74, .letter⟩,
  ⟨0xfe76, 0xfefc, .letter⟩, ⟨0xff01, 0xff03, .punctuation⟩, ⟨0xff05, 0xff0a, .punctuation⟩,
  ⟨0xff0c, 0xff0f, .punctuation⟩, ⟨0xff10, 0xff19, .number⟩, ⟨0xff1a, 0xff1b, .punctuation⟩,
  ⟨0xff1f, 0xff20, .punctuation⟩, ⟨0xff21, 0xff3a, .letter⟩, ⟨0xff3b, 0xff3d, .punctuation⟩,
  ⟨0xff3f, 0xff3f, .punctuation⟩, ⟨0xff41, 0xff5a, .letter⟩, ⟨0xff5b, 0xff5b, .punctuation⟩,
  ⟨0xff5d, 0xff5d, .punctuation⟩, ⟨0xff5f, 0xff65, .punctuation⟩, ⟨0xff66, 0xffbe, .letter⟩,
  ⟨0xffc2, 0xffc7, .letter⟩, ⟨0xffca, 0xffcf, .letter⟩, ⟨0xffd2, 0xffd7, .letter⟩,
  ⟨0xffda, 0xffdc, .letter⟩, ⟨0x10000, 0x1000b, .letter⟩, ⟨0x1000d, 0x10026, .letter⟩,
  ⟨0x10028, 0x1003a, .letter⟩, ⟨0x1003c, 0x1003d, .letter⟩, ⟨0x1003f, 0x1004d, .letter⟩,
  ⟨0x10050, 0x1005d, .letter⟩, ⟨0x10080, 0x100fa, .letter⟩, ⟨0x10100, 0x10102, .punctuation⟩,
  ⟨0x10107, 0x10133, .number⟩, ⟨0x10140, 0x10178, .number⟩, ⟨0x1018a, 0x1018b, .number⟩,
  ⟨0x101fd, 0x101fd, .mark⟩, ⟨0x10280, 0x1029c, .letter⟩, ⟨0x102a0, 0x102d0, .letter⟩,
  ⟨0x102e0, 0x102e0, .mark⟩, ⟨0x102e1, 0x102fb, .number⟩, ⟨0x10300, 0x1031f, .letter⟩,
  ⟨0x10320, 0x10323, .number⟩, ⟨0x1032d, 0x10340, .letter⟩, ⟨0x10341, 0x10341, .number⟩,
  ⟨0x10342, 0x10349, .letter⟩, ⟨0x1034a, 0x1034a, .number⟩, ⟨0x10350, 0x10375, .letter⟩,
  ⟨0x10376, 0x1037a, .mark⟩, ⟨0x10380, 0x1039d, .letter⟩, ⟨0x1039f, 0x1039f, .punctuation⟩,
  ⟨0x103a0, 0x103c3, .letter⟩, ⟨0x103c8, 0x103cf, .letter⟩, ⟨0x103d0, 0x103d0, .punctuation⟩,
  ⟨0x103d1, 0x103d5, .number⟩]

private def class10400 : List (CodeRow CharClass) := [
  ⟨0x10400, 0x1049d, .letter⟩, ⟨0x104a0, 0x104a9, .number⟩, ⟨0x104b0, 0x104d3, .letter⟩,
  ⟨0x104d8, 0x104fb, .letter⟩, ⟨0x10500, 0x10527, .letter⟩, ⟨0x10530, 0x10563, .letter⟩,
  ⟨0x1056f, 0x1056f, .punctuation⟩, ⟨0x10570, 0x1057a, .letter⟩, ⟨0x1057c, 0x1058a, .letter⟩,
  ⟨0x1058c, 0x10592, .letter⟩, ⟨0x10594, 0x10595, .letter⟩, ⟨0x10597, 0x105a1, .letter⟩,
  ⟨0x105a3, 0x105b1, .letter⟩, ⟨0x105b3, 0x105b9, .letter⟩, ⟨0x105bb, 0x105bc, .letter⟩,
  ⟨0x10600, 0x10736, .letter⟩, ⟨0x10740, 0x10755, .letter⟩, ⟨0x10760, 0x10767, .letter⟩,
  ⟨0x10780, 0x10785, .letter⟩, ⟨0x10787, 0x107b0, .letter⟩, ⟨0x107b2, 0x107ba, .letter⟩,
  ⟨0x10800, 0x10805, .letter⟩, ⟨0x10808, 0x10808, .letter⟩, ⟨0x1080a, 0x10835, .letter⟩,
  ⟨0x10837, 0x10838, .letter⟩, ⟨0x1083c, 0x1083c, .letter⟩, ⟨0x1083f, 0x10855, .letter⟩,
  ⟨0x10857, 0x10857, .punctuation⟩, ⟨0x10858, 0x1085f, .number⟩, ⟨0x10860, 0x10876, .letter⟩,
  ⟨0x10879, 0x1087f, .number⟩, ⟨0x10880, 0x1089e, .letter⟩, ⟨0x108a7, 0x108af, .number⟩,
  ⟨0x108e0, 0x108f2, .letter⟩, ⟨0x108f4, 0x108f5, .letter⟩, ⟨0x108fb, 0x108ff, .number⟩,
  ⟨0x10900, 0x10915, .letter⟩, ⟨0x10916, 0x1091b, .number⟩, ⟨0x1091f, 0x1091f, .punctuation⟩,
  ⟨0x10920, 0x10939, .letter⟩, ⟨0x1093f, 0x1093f, .punctuation⟩, ⟨0x10980, 0x109b7, .letter⟩,
  ⟨0x109bc, 0x109bd, .number⟩, ⟨0x109be, 0x109bf, .letter⟩, ⟨0x109c0, 0x109cf, .number⟩,
  ⟨0x109d2, 0x109ff, .number⟩, ⟨0x10a00, 0x10a00, .letter⟩, ⟨0x10a01, 0x10a03, .mark⟩,
  ⟨0x10a05, 0x10a06, .mark⟩, ⟨0x10a0c, 0x10a0f, .mark⟩, ⟨0x10a10, 0x10a13, .letter⟩,
  ⟨0x10a15, 0x10a17, .letter⟩, ⟨0x10a19, 0x10a35, .letter⟩, ⟨0x10a38, 0x10a3a, .mark⟩,
  ⟨0x10a3f, 0x10a3f, .mark⟩, ⟨0x10a40, 0x10a48, .number⟩, ⟨0x10a50, 0x10a58, .punctuation⟩,
  ⟨0x10a60, 0x10a7c, .letter⟩, ⟨0x10a7d, 0x10a7e, .number⟩, ⟨0x10a7f, 0x10a7f, .punctuation⟩,
  ⟨0x10a80, 0x10a9c, .letter⟩, ⟨0x10a9d, 0x10a9f, .number⟩, ⟨0x10ac0, 0x10ac7, .letter⟩,
  ⟨0x10ac9, 0x10ae4, .letter⟩, ⟨0x10ae5, 0x10ae6, .mark⟩, ⟨0x10aeb, 0x10aef, .number⟩,
  ⟨0x10af0, 0x10af6, .punctuation⟩]

private def class10B00 : List (CodeRow CharClass) := [
  ⟨0x10b00, 0x10b35, .letter⟩, ⟨0x10b39, 0x10b3f, .punctuation⟩, ⟨0x10b40, 0x10b55, .letter⟩,
  ⟨0x10b58, 0x10b5f, .number⟩, ⟨0x10b60, 0x10b72, .letter⟩, ⟨0x10b78, 0x10b7f, .number⟩,
  ⟨0x10b80, 0x10b91, .letter⟩, ⟨0x10b99, 0x10b9c, .punctuation⟩, ⟨0x10ba9, 0x10baf, .number⟩,
  ⟨0x10c00, 0x10c48, .letter⟩, ⟨0x10c80, 0x10cb2, .letter⟩, ⟨0x10cc0, 0x10cf2, .letter⟩,
  ⟨0x10cfa, 0x10cff, .number⟩, ⟨0x10d00, 0x10d23, .letter⟩, ⟨0x10d24, 0x10d27, .mark⟩,
  ⟨0x10d30, 0x10d39, .number⟩, ⟨0x10e60, 0x10e7e, .number⟩, ⟨0x10e80, 0x10ea9, .letter⟩,
  ⟨0x10eab, 0x10eac, .mark⟩, ⟨0x10ead, 0x10ead, .punctuation⟩, ⟨0x10eb0, 0x10eb1, .letter⟩,
  ⟨0x10f00, 0x10f1c, .letter⟩, ⟨0x10f1d, 0x10f26, .number⟩, ⟨0x10f27, 0x10f27, .letter⟩,
  ⟨0x10f30, 0x10f45, .letter⟩, ⟨0x10f46, 0x10f50, .mark⟩, ⟨0x10f51, 0x10f54, .number⟩,
  ⟨0x10f55, 0x10f59, .punctuation⟩, ⟨0x10f70, 0x10f81, .letter⟩, ⟨0x10f82, 0x10f85, .mark⟩,
  ⟨0x10f86, 0x10f89, .punctuation⟩, ⟨0x10fb0, 0x10fc4, .letter⟩, ⟨0x10fc5, 0x10fcb, .number⟩,
  ⟨0x10fe0, 0x10ff6, .letter⟩, ⟨0x11000, 0x11002, .mark⟩, ⟨0x11003, 0x11037, .letter⟩,
  ⟨0x11038, 0x11046, .mark⟩, ⟨0x11047, 0x1104d, .punctuation⟩, ⟨0x11052, 0x1106f, .number⟩,
  ⟨0x11070, 0x11070, .mark⟩, ⟨0x11071, 0x11072, .letter⟩, ⟨0x11073, 0x11074, .mark⟩,
  ⟨0x11075, 0x11075, .letter⟩, ⟨0x1107f, 0x11082, .mark⟩, ⟨0x11083, 0x110af, .letter⟩,
  ⟨0x110b0, 0x110ba, .mark⟩, ⟨0x110bb, 0x110bc, .punctuation⟩, ⟨0x110be, 0x110c1, .punctuation⟩,
  ⟨0x110c2, 0x110c2, .mark⟩, ⟨0x110d0, 0x110e8, .letter⟩, ⟨0x110f0, 0x110f9, .number⟩,
  ⟨0x11100, 0x11102, .mark⟩, ⟨0x11103, 0x11126, .letter⟩, ⟨0x11127, 0x11134, .mark⟩,
  ⟨0x11136, 0x1113f, .number⟩, ⟨0x11140, 0x11143, .punctuation⟩, ⟨0x11144, 0x11144, .letter⟩,
  ⟨0x11145, 0x11146, .mark⟩, ⟨0x11147, 0x11147, .letter⟩, ⟨0x11150, 0x11172, .letter⟩,
  ⟨0x11173, 0x11173, .mark⟩, ⟨0x11174, 0x11175, .punctuation⟩, ⟨0x11176, 0x11176, .letter⟩]

private def class11180 : List (CodeRow CharClass) := [
  ⟨0x11180, 0x11182, .mark⟩, ⟨0x11183, 0x111b2, .letter⟩, ⟨0x111b3, 0x111c0, .mark⟩,
  ⟨0x111c1, 0x111c4, .letter⟩, ⟨0x111c5, 0x111c8, .punctuation⟩, ⟨0x111c9, 0x111cc, .mark⟩,
  ⟨0x111cd, 0x111cd, .punctuation⟩, ⟨0x111ce, 0x111cf, .mark⟩, ⟨0x111d0, 0x111d9, .number⟩,
  ⟨0x111da, 0x111da, .letter⟩, ⟨0x111db, 0x111db, .punctuation⟩, ⟨0x111dc, 0x111dc, .letter⟩,
  ⟨0x111dd, 0x111df, .punctuation⟩, ⟨0x111e1, 0x111f4, .number⟩, ⟨0x11200, 0x11211, .letter⟩,
  ⟨0x11213, 0x1122b, .letter⟩, ⟨0x1122c, 0x11237, .mark⟩, ⟨0x11238, 0x1123d, .punctuation⟩,
  ⟨0x1123e, 0x1123e, .mark⟩, ⟨0x11280, 0x11286, .letter⟩, ⟨0x11288, 0x11288, .letter⟩,
  ⟨0x1128a, 0x1128d, .letter⟩, ⟨0x1128f, 0x1129d, .letter⟩, ⟨0x1129f, 0x112a8, .letter⟩,
  ⟨0x112a9, 0x112a9, .punctuation⟩, ⟨0x112b0, 0x112de, .letter⟩, ⟨0x112df, 0x112ea, .mark⟩,
  ⟨0x112f0, 0x112f9, .number⟩, ⟨0x11300, 0x11303, .mark⟩, ⟨0x11305, 0x1130c, .letter⟩,
  ⟨0x1130f, 0x11310, .letter⟩, ⟨0x11313, 0x11328, .letter⟩, ⟨0x1132a, 0x11330, .letter⟩,
  ⟨0x11332, 0x11333, .letter⟩, ⟨0x11335, 0x11339, .letter⟩, ⟨0x1133b, 0x1133c, .mark⟩,
  ⟨0x1133d, 0x1133d, .letter⟩, ⟨0x1133e, 0x11344, .mark⟩, ⟨0x11347, 0x11348, .mark⟩,
  ⟨0x1134b, 0x1134d, .mark⟩, ⟨0x11350, 0x11350, .letter⟩, ⟨0x11357, 0x11357, .mark⟩,
  ⟨0x1135d, 0x11361, .letter⟩, ⟨0x11362, 0x11363, .mark⟩, ⟨0x11366, 0x1136c, .mark⟩,
  ⟨0x11370, 0x11374, .mark⟩, ⟨0x11400, 0x11434, .letter⟩, ⟨0x11435, 0x11446, .mark⟩,
  ⟨0x11447, 0x1144a, .letter⟩, ⟨0x1144b, 0x1144f, .punctuation⟩, ⟨0x11450, 0x11459, .number⟩,
  ⟨0x1145a, 0x1145b, .punctuation⟩, ⟨0x1145d, 0x1145d, .punctuation⟩, ⟨0x1145e, 0x1145e, .mark⟩,
  ⟨0x1145f, 0x11461, .letter⟩, ⟨0x11480, 0x114af, .letter⟩, ⟨0x114b0, 0x114c3, .mark⟩,
  ⟨0x114c4, 0x114c5, .letter⟩, ⟨0x114c6, 0x114c6, .punctuation⟩, ⟨0x114c7, 0x114c7, .letter⟩,
  ⟨0x114d0, 0x114d9, .number⟩, ⟨0x11580, 0x115ae, .letter⟩, ⟨0x115af, 0x115b5, .mark⟩,
  ⟨0x115b8, 0x115c0, .mark⟩, ⟨0x115c1, 0x115d7, .punctuation⟩, ⟨0x115d8, 0x115db, .letter⟩,
  ⟨0x115dc, 0x115dd, .mark⟩]

private def class11600 : List (CodeRow CharClass) := [
  ⟨0x11600, 0x1162f, .letter⟩, ⟨0x11630, 0x11640, .mark⟩, ⟨0x11641, 0x11643, .punctuation⟩,
  ⟨0x11644, 0x11644, .letter⟩, ⟨0x11650, 0x11659, .number⟩, ⟨0x11660, 0x1166c, .punctuation⟩,
  ⟨0x11680, 0x116aa, .letter⟩, ⟨0x116ab, 0x116b7, .mark⟩, ⟨0x116b8, 0x116b8, .letter⟩,
  ⟨0x116b9, 0x116b9, .punctuation⟩, ⟨0x116c0, 0x116c9, .number⟩, ⟨0x11700, 0x1171a, .letter⟩,
  ⟨0x1171d, 0x1172b, .mark⟩, ⟨0x11730, 0x1173b, .number⟩, ⟨0x1173c, 0x1173e, .punctuation⟩,
  ⟨0x11740, 0x11746, .letter⟩, ⟨0x11800, 0x1182b, .letter⟩, ⟨0x1182c, 0x1183a, .mark⟩,
  ⟨0x1183b, 0x1183b, .punctuation⟩, ⟨0x118a0, 0x118df, .letter⟩, ⟨0x118e0, 0x118f2, .number⟩,
  ⟨0x118ff, 0x11906, .letter⟩, ⟨0x11909, 0x11909, .letter⟩, ⟨0x1190c, 0x11913, .letter⟩,
  ⟨0x11915, 0x11916, .letter⟩, ⟨0x11918, 0x1192f, .letter⟩, ⟨0x11930, 0x11935, .mark⟩,
  ⟨0x11937, 0x11938, .mark⟩, ⟨0x1193b, 0x1193e, .mark⟩, ⟨0x1193f, 0x1193f, .letter⟩,
  ⟨0x11940, 0x11940, .mark⟩, ⟨0x11941, 0x11941, .letter⟩, ⟨0x11942, 0x11943, .mark⟩,
  ⟨0x11944, 0x11946, .punctuation⟩, ⟨0x11950, 0x11959, .number⟩, ⟨0x119a0, 0x119a7, .letter⟩,
  ⟨0x119aa, 0x119d0, .letter⟩, ⟨0x119d1, 0x119d7, .mark⟩, ⟨0x119da, 0x119e0, .mark⟩,
  ⟨0x119e1, 0x119e1, .letter⟩, ⟨0x119e2, 0x119e2, .punctuation⟩, ⟨0x119e3, 0x119e3, .letter⟩,
  ⟨0x119e4, 0x119e4, .mark⟩, ⟨0x11a00, 0x11a00, .letter⟩, ⟨0x11a01, 0x11a0a, .mark⟩,
  ⟨0x11a0b, 0x11a32, .letter⟩, ⟨0x11a33, 0x11a39, .mark⟩, ⟨0x11a3a, 0x11a3a, .letter⟩,
  ⟨0x11a3b, 0x11a3e, .mark⟩, ⟨0x11a3f, 0x11a46, .punctuation⟩, ⟨0x11a47, 0x11a47, .mark⟩,
  ⟨0x11a50, 0x11a50, .letter⟩, ⟨0x11a51, 0x11a5b, .mark⟩, ⟨0x11a5c, 0x11a89, .letter⟩,
  ⟨0x11a8a, 0x11a99, .mark⟩, ⟨0x11a9a, 0x11a9c, .punctuation⟩, ⟨0x11a9d, 0x11a9d, .letter⟩,
  ⟨0x11a9e, 0x11aa2, .punctuation⟩, ⟨0x11ab0, 0x11af8, .letter⟩, ⟨0x11c00, 0x11c08, .letter⟩,
  ⟨0x11c0a, 0x11c2e, .letter⟩, ⟨0x11c2f, 0x11c36, .mark⟩, ⟨0x11c38, 0x11c3f, .mark⟩,
  ⟨0x11c40, 0x11c40, .letter⟩, ⟨0x11c41, 0x11c45, .punctuation⟩, ⟨0x11c50, 0x11c6c, .number⟩,
  ⟨0x11c70, 0x11c71, .punctuation⟩, ⟨0x11c72, 0x11c8f, .letter⟩, ⟨0x11c92, 0x11ca7, .mark⟩,
  ⟨0x11ca9, 0x11cb6, .mark⟩, ⟨0x11d00, 0x11d06, .letter⟩, ⟨0x11d08, 0x11d09, .letter⟩,
  ⟨0x11d0b, 0x11d30, .letter⟩, ⟨0x11d31, 0x11d36, .mark⟩, ⟨0x11d3a, 0x11d3a, .mark⟩,
  ⟨0x11d3c, 0x11d3d, .mark⟩, ⟨0x11d3f, 0x11d45, .mark⟩, ⟨0x11d46, 0x11d46, .letter⟩,
  ⟨0x11d47, 0x11d47, .mark⟩, ⟨0x11d50, 0x11d59, .number⟩, ⟨0x11d60, 0x11d65, .letter⟩,
  ⟨0x11d67, 0x11d68, .letter⟩, ⟨0x11d6a, 0x11d89, .letter⟩, ⟨0x11d8a, 0x11d8e, .mark⟩,
  ⟨0x11d90, 0x11d91, .mark⟩, ⟨0x11d93, 0x11d97, .mark⟩, ⟨0x11d98, 0x11d98, .letter⟩,
  ⟨0x11da0, 0x11da9, .number⟩, ⟨0x11ee0, 0x11ef2, .letter⟩, ⟨0x11ef3, 0x11ef6, .mark⟩,
  ⟨0x11ef7, 0x11ef8, .punctuation⟩, ⟨0x11fb0, 0x11fb0, .letter⟩, ⟨0x11fc0, 0x11fd4, .number⟩,
  ⟨0x11fff, 0x11fff, .punctuation⟩]

private def class12000 : List (CodeRow CharClass) := [
  ⟨0x12000, 0x12399, .letter⟩, ⟨0x12400, 0x1246e, .number⟩, ⟨0x12470, 0x12474, .punctuation⟩,
  ⟨0x12480, 0x12543, .letter⟩, ⟨0x12f90, 0x12ff0, .letter⟩, ⟨0x12ff1, 0x12ff2, .punctuation⟩,
  ⟨0x13000, 0x1342e, .letter⟩, ⟨0x14400, 0x14646, .letter⟩, ⟨0x16800, 0x16a38, .letter⟩,
  ⟨0x16a40, 0x16a5e, .letter⟩, ⟨0x16a60, 0x16a69, .number⟩, ⟨0x16a6e, 0x16a6f, .punctuation⟩,
  ⟨0x16a70, 0x16abe, .letter⟩, ⟨0x16ac0, 0x16ac9, .number⟩, ⟨0x16ad0, 0x16aed, .letter⟩,
  ⟨0x16af0, 0x16af4, .mark⟩, ⟨0x16af5, 0x16af5, .punctuation⟩, ⟨0x16b00, 0x16b2f, .letter⟩,
  ⟨0x16b30, 0x16b36, .mark⟩, ⟨0x16b37, 0x16b3b, .punctuation⟩, ⟨0x16b40, 0x16b43, .letter⟩,
  ⟨0x16b44, 0x16b44, .punctuation⟩, ⟨0x16b50, 0x16b59, .number⟩, ⟨0x16b5b, 0x16b61, .number⟩,
  ⟨0x16b63, 0x16b77, .letter⟩, ⟨0x16b7d, 0x16b8f, .letter⟩, ⟨0x16e40, 0x16e7f, .letter⟩,
  ⟨0x16e80, 0x16e96, .number⟩, ⟨0x16e97, 0x16e9a, .punctuation⟩]

private def class16F00 : List (CodeRow CharClass) := [
  ⟨0x16f00, 0x16f4a, .letter⟩, ⟨0x16f4f, 0x16f4f, .mark⟩, ⟨0x16f50, 0x16f50, .letter⟩,
  ⟨0x16f51, 0x16f87, .mark⟩, ⟨0x16f8f, 0x16f92, .mark⟩, ⟨0x16f93, 0x16f9f, .letter⟩,
  ⟨0x16fe0, 0x16fe1, .letter⟩, ⟨0x16fe2, 0x16fe2, .punctuation⟩, ⟨0x16fe3, 0x16fe3, .letter⟩,
  ⟨0x16fe4, 0x16fe4, .mark⟩, ⟨0x16ff0, 0x16ff1, .mark⟩, ⟨0x17000, 0x187f7, .letter⟩,
  ⟨0x18800, 0x18cd5, .letter⟩, ⟨0x18d00, 0x18d08, .letter⟩, ⟨0x1aff0, 0x1aff3, .letter⟩,
  ⟨0x1aff5, 0x1affb, .letter⟩, ⟨0x1affd, 0x1affe, .letter⟩, ⟨0x1b000, 0x1b122, .letter⟩,
  ⟨0x1b150, 0x1b152, .letter⟩, ⟨0x1b164, 0x1b167, .letter⟩, ⟨0x1b170, 0x1b2fb, .letter⟩,
  ⟨0x1bc00, 0x1bc6a, .letter⟩, ⟨0x1bc70, 0x1bc7c, .letter⟩, ⟨0x1bc80, 0x1bc88, .letter⟩,
  ⟨0x1bc90, 0x1bc99, .letter⟩, ⟨0x1bc9d, 0x1bc9e, .mark⟩, ⟨0x1bc9f, 0x1bc9f, .punctuation⟩,
  ⟨0x1cf00, 0x1cf2d, .mark⟩, ⟨0x1cf30, 0x1cf46, .mark⟩, ⟨0x1d165, 0x1d169, .mark⟩,
  ⟨0x1d16d, 0x1d172, .mark⟩, ⟨0x1d17b, 0x1d182, .mark⟩, ⟨0x1d185, 0x1d18b, .mark⟩,
  ⟨0x1d1aa, 0x1d1ad, .mark⟩, ⟨0x1d242, 0x1d244, .mark⟩, ⟨0x1d2e0, 0x1d2f3, .number⟩,
  ⟨0x1d360, 0x1d378, .number⟩, ⟨0x1d400, 0x1d454, .letter⟩, ⟨0x1d456, 0x1d49c, .letter⟩,
  ⟨0x1d49e, 0x1d49f, .letter⟩, ⟨0x1d4a2, 0x1d4a2, .letter⟩, ⟨0x1d4a5, 0x1d4a6, .letter⟩,
  ⟨0x1d4a9, 0x1d4ac, .letter⟩, ⟨0x1d4ae, 0x1d4b9, .letter⟩, ⟨0x1d4bb, 0x1d4bb, .letter⟩,
  ⟨0x1d4bd, 0x1d4c3, .letter⟩, ⟨0x1d4c5, 0x1d505, .letter⟩, ⟨0x1d507, 0x1d50a, .letter⟩,
  ⟨0x1d50d, 0x1d514, .letter⟩, ⟨0x1d516, 0x1d51c, .letter⟩, ⟨0x1d51e, 0x1d539, .letter⟩,
  ⟨0x1d53b, 0x1d53e, .letter⟩, ⟨0x1d540, 0x1d544, .letter⟩, ⟨0x1d546, 0x1d546, .letter⟩,
  ⟨0x1d54a, 0x1d550, .letter⟩, ⟨0x1d552, 0x1d6a5, .letter⟩, ⟨0x1d6a8, 0x1d6c0, .letter⟩,
  ⟨0x1d6c2, 0x1d6da, .letter⟩, ⟨0x1d6dc, 0x1d6fa, .letter⟩, ⟨0x1d6fc, 0x1d714, .letter⟩,
  ⟨0x1d716, 0x1d734, .letter⟩, ⟨0x1d736, 0x1d74e, .letter⟩, ⟨0x1d750, 0x1d76e, .letter⟩,
  ⟨0x1d770, 0x1d788, .letter⟩, ⟨0x1d78a, 0x1d7a8, .letter⟩, ⟨0x1d7aa, 0x1d7c2, .letter⟩,
  ⟨0x1d7c4, 0x1d7cb, .letter⟩, ⟨0x1d7ce, 0x1d7ff, .number⟩, ⟨0x1da00, 0x1da36, .mark⟩,
  ⟨0x1da3b, 0x1da6c, .mark⟩, ⟨0x1da75, 0x1da75, .mark⟩, ⟨0x1da84, 0x1da84, .mark⟩,
  ⟨0x1da87, 0x1da8b, .punctuation⟩, ⟨0x1da9b, 0x1da9f, .mark⟩, ⟨0x1daa1, 0x1daaf, .mark⟩]

private def class1DF00 : List (CodeRow CharClass) := [
  ⟨0x1df00, 0x1df1e, .letter⟩, ⟨0x1e000, 0x1e006, .mark⟩, ⟨0x1e008, 0x1e018, .mark⟩,
  ⟨0x1e01b, 0x1e021, .mark⟩, ⟨0x1e023, 0x1e024, .mark⟩, ⟨0x1e026, 0x1e02a, .mark⟩,
  ⟨0x1e100, 0x1e12c, .letter⟩, ⟨0x1e130, 0x1e136, .mark⟩, ⟨0x1e137, 0x1e13d, .letter⟩,
  ⟨0x1e140, 0x1e149, .number⟩, ⟨0x1e14e, 0x1e14e, .letter⟩, ⟨0x1e290, 0x1e2ad, .letter⟩,
  ⟨0x1e2ae, 0x1e2ae, .mark⟩, ⟨0x1e2c0, 0x1e2eb, .letter⟩, ⟨0x1e2ec, 0x1e2ef, .mark⟩,
  ⟨0x1e2f0, 0x1e2f9, .number⟩, ⟨0x1e7e0, 0x1e7e6, .letter⟩, ⟨0x1e7e8, 0x1e7eb, .letter⟩,
  ⟨0x1e7ed, 0x1e7ee, .letter⟩, ⟨0x1e7f0, 0x1e7fe, .letter⟩, ⟨0x1e800, 0x1e8c4, .letter⟩,
  ⟨0x1e8c7, 0x1e8cf, .number⟩, ⟨0x1e8d0, 0x1e8d6, .mark⟩, ⟨0x1e900, 0x1e943, .letter⟩,
  ⟨0x1e944, 0x1e94a, .mark⟩, ⟨0x1e94b, 0x1e94b, .letter⟩, ⟨0x1e950, 0x1e959, .number⟩,
  ⟨0x1e95e, 0x1e95f, .punctuation⟩, ⟨0x1ec71, 0x1ecab, .number⟩, ⟨0x1ecad, 0x1ecaf, .number⟩,
  ⟨0x1ecb1, 0x1ecb4, .number⟩, ⟨0x1ed01, 0x1ed2d, .number⟩, ⟨0x1ed2f, 0x1ed3d, .number⟩,
  ⟨0x1ee00, 0x1ee03, .letter⟩, ⟨0x1ee05, 0x1ee1f, .letter⟩, ⟨0x1ee21, 0x1ee22, .letter⟩,
  ⟨0x1ee24, 0x1ee24, .letter⟩, ⟨0x1ee27, 0x1ee27, .letter⟩, ⟨0x1ee29, 0x1ee32, .letter⟩,
  ⟨0x1ee34, 0x1ee37, .letter⟩, ⟨0x1ee39, 0x1ee39, .letter⟩, ⟨0x1ee3b, 0x1ee3b, .letter⟩,
  ⟨0x1ee42, 0x1ee42, .letter⟩, ⟨0x1ee47, 0x1ee47, .letter⟩, ⟨0x1ee49, 0x1ee49, .letter⟩,
  ⟨0x1ee4b, 0x1ee4b, .letter⟩, ⟨0x1ee4d, 0x1ee4f, .letter⟩, ⟨0x1ee51, 0x1ee52, .letter⟩,
  ⟨0x1ee54, 0x1ee54, .letter⟩, ⟨0x1ee57, 0x1ee57, .letter⟩, ⟨0x1ee59, 0x1ee59, .letter⟩,
  ⟨0x1ee5b, 0x1ee5b, .letter⟩, ⟨0x1ee5d, 0x1ee5d, .letter⟩, ⟨0x1ee5f, 0x1ee5f, .letter⟩,
  ⟨0x1ee61, 0x1ee62, .letter⟩, ⟨0x1ee64, 0x1ee64, .letter⟩, ⟨0x1ee67, 0x1ee6a, .letter⟩,
  ⟨0x1ee6c, 0x1ee72, .letter⟩, ⟨0x1ee74, 0x1ee77, .letter⟩, ⟨0x1ee79, 0x1ee7c, .letter⟩,
  ⟨0x1ee7e, 0x1ee7e, .letter⟩, ⟨0x1ee80, 0x1ee89, .letter⟩, ⟨0x1ee8b, 0x1ee9b, .letter⟩,
  ⟨0x1eea1, 0x1eea3, .letter⟩, ⟨0x1eea5, 0x1eea9, .letter⟩, ⟨0x1eeab, 0x1eebb, .letter⟩,
  ⟨0x1f100, 0x1f10c, .number⟩, ⟨0x1fbf0, 0x1fbf9, .number⟩, ⟨0x20000, 0x2a6df, .letter⟩,
  ⟨0x2a700, 0x2b738, .letter⟩, ⟨0x2b740, 0x2b81d, .letter⟩, ⟨0x2b820, 0x2cea1, .letter⟩,
  ⟨0x2ceb0, 0x2ebe0, .letter⟩, ⟨0x2f800, 0x2fa1d, .letter⟩, ⟨0x30000, 0x3134a, .letter⟩,
  ⟨0xe0100, 0xe01ef, .mark⟩]

def table : CodeTable CharClass := [
  (0x58f, class0000), (0x903, class0590), (0xaff, class0904), (0xcff, class0B00),
  (0xfff, class0D00), (0x16ff, class1000), (0x1dff, class1700), (0x2bff, class1E00),
  (0x33ff, class2C00), (0xaaff, class3400), (0xfdff, classAB00), (0x103ff, classFE00),
  (0x10aff, class10400), (0x1117f, class10B00), (0x115ff, class11180), (0x11fff, class11600),
  (0x16eff, class12000), (0x1deff, class16F00), (0x10ffff, class1DF00)]

/-- One that no row holds is a symbol, a format character, or unassigned. -/
def of (c : Char) : CharClass := (table.value? c.toNat).getD .other

end CharClass
end Concordance.Text
