import SourceOverlay.Text.Property

/-!
# Folding the characters of domain names

Many characters look or mean the same in a domain name: capital and small letters, letters of
other widths and shapes, ligatures and their letters. Each is folded to plain characters. Some
characters are dropped, and some may not stand in a domain name at all.
-/

set_option autoImplicit false

namespace SourceOverlay.Domain

/-- What becomes of each character: those of kind `v` stay, those of kind `i` are dropped, those of
kind `m` give other characters, counted on along the run, and those of kind `p` are pairs of which
the first gives the second. The others are refused. -/
def foldings : Text.Property := .ofText "
  41v 1Am61 25v 20x m20 7v m20.308 v m61 2v i v m20.304 2v 2m32 m20.301 m3BC 2v m20.327 m31 m6F v
  m31.2044.34 m31.2044.32 m33.2044.34 v 17mE0 v 7mF8 21v 30p m69.307 v m69.6A m69.6A 4p v 6p
  m6C.B7 m6C.B7 8p m2BC.6E 2Ep mFF 6p m73 v m253 4p m254 m188 v 2m256 m18C 2v m1DD m259 m25B m192
  v m260 m263 v m269 m268 m199 3v m26F m272 v m275 6p m280 m1A8 v m283 2v m1AD v m288 m1B0 v 2m28A
  4p m292 m1B9 3v m1BD 7v m64.17E m64.17E m64.17E m6C.6A m6C.6A m6C.6A m6E.6A m6E.6A m6E.6A 10p v
  12p v m64.7A m64.7A m64.7A m1F5 v m195 m1BF 28p m19E v 12p 6v m2C65 m23C v m19A m2C66 2v m242 v
  m180 m289 m28C Ap 60v m68 m266 m6A m72 m279 m27B m281 m77 m79 1Fv m20.306 m20.307 m20.30A
  m20.328 m20.303 m20.30B 2v m263 m6C m73 m78 m295 5Bv 2m300 v m313 m308.301 m3B9 9v i 20v 4p m2B9
  v m377 v 2x m20.3B9 3v m3B m3F3 4x m20.301 m20.308.301 m3AC mB7 3m3AD x m3CC x 2m3CD v 11m3B1 x
  9m3C3 23v m3D7 m3B2 m3B8 m3C5 m3CD m3CB m3C6 m3C0 v 18p m3BA m3C1 m3C3 v m3B8 m3B5 v m3F8 v m3C3
  m3FB 2v 3m37B 10m450 20m430 30v 22p 8v 36p m4CF Ep v 60p x 26m561 2x 2Ev m565.582 3v 2x 3v x 37v
  8x 1Bv 4x 6v 11x 16v x 58v m627.674 m648.674 m6C7.674 m64A.674 64v x 30v 2x 3Bv 2x 65v Ex 3Bv 2x
  31v 2x Fv x 1Cv 2x v x Bv 5x 20v 7x 4Bv x 75v m915.93C m916.93C m917.93C m91C.93C m921.93C
  m922.93C m92B.93C m92F.93C 24v x 8v 2x 2v 2x 16v x 7v x v 3x 4v 2x 9v 2x 2v 2x 4v 8x v 4x
  m9A1.9BC m9A2.9BC x m9AF.9BC 4v 2x 19v 2x 3v x 6v 4x 2v 2x 16v x 7v x v mA32.A3C x v mA38.A3C x
  2v 2x v x 5v 4x 2v 2x 3v 3x v 7x mA16.A3C mA17.A3C mA1C.A3C v x mA2B.A3C 7x 11v Ax 3v x 9v x 3v
  x 16v x 7v x 2v x 5v 2x Av x 3v x 3v 2x v Fx 4v 2x Cv 7x 7v x 3v x 8v 2x 2v 2x 16v x 7v x 2v x
  5v 2x 9v 2x 2v 2x 3v 7x 3v 4x mB21.B3C mB22.B3C x 5v 2x 12v Ax 2v x 6v 3x 3v x 4v 3x 2v x v x 2v
  3x 2v 3x 3v 3x Cv 4x 5v 3x 3v x 4v 2x v 6x v Ex 15v 5x Dv x 3v x 17v x 10v 2x 9v x 3v x 4v 7x 2v
  x 3v x 2v 2x 4v 2x Av 7x 16v x 3v x 17v x Av x 5v 2x 9v x 3v x 4v 7x 2v 5x 3v x 4v 2x Av x 3v Cx
  Dv x 3v x 33v x 3v x 6v 4x 10v 2x 1Av x 3v x 12v 3x 18v x 9v x v 2x 7v 3x v 4x 6v x v x 8v 6x Av
  2x 3v Cx 32v mE4D.E32 7v 4x 1Dv 25x 2v x v x 5v x 18v x v x Cv mECD.EB2 Av 2x 5v x v x 7v x Av
  2x mEAB.E99 mEAB.EA1 2v 20x Cv mF0B 36v mF42.FB7 4v x 4v mF4C.FB7 4v mF51.FB7 4v mF56.FB7 4v
  mF5B.FB7 Cv mF40.FB5 3v 4x 2v mF71.F72 v mF71.F74 mFB2.F80 mFB2.F71.F80 mFB3.F80 mFB3.F71.F80 7v
  mF71.F80 11v mF92.FB7 4v x 4v mF9C.FB7 4v mFA1.FB7 4v mFA6.FB7 4v mFAB.FB7 Cv mF90.FB5 3v x Fv x
  Dv 25x A0v 26m2D00 x m2D27 5x m2D2D 2x 2Cv m10DC 62v 2i E8v x 4v 2x 7v x v x 4v 2x 29v x 4v 2x
  21v x 4v 2x 7v x v x 4v 2x Fv x 39v x 4v 2x 43v 2x 20v 3x 1Av 6x 56v 2x 6m13F0 2x 280v x 1Cv 3x
  59v 7x 16v 9x 18v 9x 14v Cx Dv x 3v x 2v Cx 34v 2i 28v 2x Av 6x Av 6x Bv 5i Av 6x 59v 7x 2Bv 5x
  46v Ax 1Fv x Cv 4x Cv 4x v 3x 2Av 2x 5v Bx 2Cv 4x 1Av 6x Bv 3x 3Ev 2x 41v x 1Dv 2x Bv 6x Av 6x
  Ev 2x 2Ev 2x Cv 14x 4Dv x A6v 8x 3Cv 3x Fv 3x 33v m432 m434 m43E 2m441 m442 m44A m463 mA64B
  m1C8A v 5x 2Bm10D0 2x 3m10FD 8v 8x 2Bv 5x 2Cv m61 mE6 m62 v 2m64 m1DD 8m67 v m6F m223 m70 m72
  2m74 m77 m61 2m250 m1D02 m62 2m64 m259 2m25B m67 v m6B m6D m14B m6F m254 2m1D16 m70 2m74 m1D1D
  m26F m76 m1D25 3m3B2 2m3C6 m69 m72 2m75 2m3B2 m3C1 2m3C6 Dv m43D 22v m252 m63 m255 mF0 m25C m66
  m25F m261 m265 3m268 m1D7B m29D m26D m1D85 m29F m271 m270 4m272 m278 2m282 m1AB 2m289 m1D1C
  2m28B m7A 3m290 m3B8 40v 96p 4v m61.2BE m1E61 2v mDF v 60p 8v 8m1F00 6v 2x 6m1F10 2x 8v 8m1F20
  8v 8m1F30 6v 2x 6m1F40 2x 8v x m1F51 x m1F53 x m1F55 x m1F57 8v 8m1F60 v m3AC v m3AD v m3AE v
  m3AF v m3CC v m3CD v m3CE 2x m1F00.3B9 m1F01.3B9 m1F02.3B9 m1F03.3B9 m1F04.3B9 m1F05.3B9
  m1F06.3B9 m1F07.3B9 m1F00.3B9 m1F01.3B9 m1F02.3B9 m1F03.3B9 m1F04.3B9 m1F05.3B9 m1F06.3B9
  m1F07.3B9 m1F20.3B9 m1F21.3B9 m1F22.3B9 m1F23.3B9 m1F24.3B9 m1F25.3B9 m1F26.3B9 m1F27.3B9
  m1F20.3B9 m1F21.3B9 m1F22.3B9 m1F23.3B9 m1F24.3B9 m1F25.3B9 m1F26.3B9 m1F27.3B9 m1F60.3B9
  m1F61.3B9 m1F62.3B9 m1F63.3B9 m1F64.3B9 m1F65.3B9 m1F66.3B9 m1F67.3B9 m1F60.3B9 m1F61.3B9
  m1F62.3B9 m1F63.3B9 m1F64.3B9 m1F65.3B9 m1F66.3B9 m1F67.3B9 2v m1F70.3B9 m3B1.3B9 m3AC.3B9 x v
  m1FB6.3B9 2m1FB0 m1F70 m3AC m3B1.3B9 m20.313 m3B9 m20.313 m20.342 m20.308.342 m1F74.3B9 m3B7.3B9
  m3AE.3B9 x v m1FC6.3B9 m1F72 m3AD m1F74 m3AE m3B7.3B9 m20.313.300 m20.313.301 m20.313.342 3v
  m390 2x 2v 2m1FD0 m1F76 m3AF x m20.314.300 m20.314.301 m20.314.342 3v m3B0 4v 2m1FE0 m1F7A m3CD
  m1FE5 m20.308.300 m20.308.301 m60 2x m1F7C.3B9 m3C9.3B9 m3CE.3B9 x v m1FF6.3B9 m1F78 m3CC m1F7C
  m3CE m3C9.3B9 m20.301 m20.314 x m20 m20 m20 m20 m20 m20 m20 m20 m20 m20 m20 i 2v 2x v m2010 5v
  m20.333 Cv 3x v 7x m20 3v m2032.2032 m2032.2032.2032 v m2035.2035 m2035.2035.2035 4v m21.21 v
  m20.305 8v m3F.3F m3F.21 m21.3F Dv m2032.2032.2032.2032 7v m20 5i 5x 6i m30 m69 2x 6m34 m2B
  m2212 m3D 2m28 m6E Am30 m2B m2212 m3D 2m28 x m61 m65 m6F m78 m259 m68 4m6B m70 2m73 3x 8v m72.73
  19v Ex 21v Fx m61.2F.63 m61.2F.73 m63 mB0.63 v m63.2F.6F m63.2F.75 m25B v mB0.66 2m67 m68 m68
  m68 m127 m69 m69 m6C m6C v m6E m6E.6F 2v 3m70 m72 m72 2v m73.6D m74.65.6C m74.6D v m7A v m3C9 v
  m7A v m6B mE5 2m62 v m65 2m65 m214E m6D m6F 4m5D0 m69 v m66.61.78 m3C0 m3B3 m3B3 m3C0 m2211 4v
  m64 2m64 2m69 6v m31.2044.37 m31.2044.39 m31.2044.31.30 m31.2044.33 m32.2044.33 m31.2044.35
  m32.2044.35 m33.2044.35 m34.2044.35 m31.2044.36 m35.2044.36 m31.2044.38 m33.2044.38 m35.2044.38
  m37.2044.38 m31.2044 m69 m69.69 m69.69.69 m69.76 m76 m76.69 m76.69.69 m76.69.69.69 m69.78 m78
  m78.69 m78.69.69 m6C 2m63 m6D m69 m69.69 m69.69.69 m69.76 m76 m76.69 m76.69.69 m76.69.69.69
  m69.78 m78 m78.69 m78.69.69 m6C 2m63 m6D 3v m2184 5v m30.2044.33 2v 4x 9Cv m222B.222B
  m222B.222B.222B v m222E.222E m222E.222E.222E F8v 2m3008 FFv 16x Bv 15x 9m31 m31.30 m31.31 m31.32
  m31.33 m31.34 m31.35 m31.36 m31.37 m31.38 m31.39 m32.30 m28.31.29 m28.32.29 m28.33.29 m28.34.29
  m28.35.29 m28.36.29 m28.37.29 m28.38.29 m28.39.29 m28.31.30.29 m28.31.31.29 m28.31.32.29
  m28.31.33.29 m28.31.34.29 m28.31.35.29 m28.31.36.29 m28.31.37.29 m28.31.38.29 m28.31.39.29
  m28.32.30.29 14x m28.61.29 m28.62.29 m28.63.29 m28.64.29 m28.65.29 m28.66.29 m28.67.29 m28.68.29
  m28.69.29 m28.6A.29 m28.6B.29 m28.6C.29 m28.6D.29 m28.6E.29 m28.6F.29 m28.70.29 m28.71.29
  m28.72.29 m28.73.29 m28.74.29 m28.75.29 m28.76.29 m28.77.29 m28.78.29 m28.79.29 m28.7A.29 1Am61
  1Am61 m30 521v m222B.222B.222B.222B 67v m3A.3A.3D m3D.3D m3D.3D.3D 65v m2ADD.338 97v 2x 8Av
  30m2C30 30v m2C61 v m26B m1D7D m27D 2v 6p m251 m271 m250 m252 v m2C73 2v m2C76 6v m6A m76 2m23F
  64p 7v 4p 3v m2CF3 v 5x 2Dv x v 5x v 2x 38v 7x m2D61 v Ex 18v 9x 7v x 7v x 7v x 7v x 7v x 7v x
  7v x 7v x 7Ev 22x 1Av x 4v m6BCD 53v m9F9F Cx m4E00 m4E28 m4E36 m4E3F m4E59 m4E85 m4E8C m4EA0
  m4EBA m513F m5165 m516B m5182 m5196 m51AB m51E0 m51F5 m5200 m529B m52F9 m5315 m531A m5338 m5341
  m535C m5369 m5382 m53B6 m53C8 m53E3 m56D7 m571F m58EB m5902 m590A m5915 m5927 m5973 m5B50 m5B80
  m5BF8 m5C0F m5C22 m5C38 m5C6E m5C71 m5DDB m5DE5 m5DF1 m5DFE m5E72 m5E7A m5E7F m5EF4 m5EFE m5F0B
  m5F13 m5F50 m5F61 m5F73 m5FC3 m6208 m6236 m624B m652F m6534 m6587 m6597 m65A4 m65B9 m65E0 m65E5
  m66F0 m6708 m6728 m6B20 m6B62 m6B79 m6BB3 m6BCB m6BD4 m6BDB m6C0F m6C14 m6C34 m706B m722A m7236
  m723B m723F m7247 m7259 m725B m72AC m7384 m7389 m74DC m74E6 m7518 m751F m7528 m7530 m758B m7592
  m7676 m767D m76AE m76BF m76EE m77DB m77E2 m77F3 m793A m79B8 m79BE m7A74 m7ACB m7AF9 m7C73 m7CF8
  m7F36 m7F51 m7F8A m7FBD m8001 m800C m8012 m8033 m807F m8089 m81E3 m81EA m81F3 m81FC m820C m821B
  m821F m826E m8272 m8278 m864D m866B m8840 m884C m8863 m897E m898B m89D2 m8A00 m8C37 m8C46 m8C55
  m8C78 m8C9D m8D64 m8D70 m8DB3 m8EAB m8ECA m8F9B m8FB0 m8FB5 m9091 m9149 m91C6 m91CC m91D1 m9577
  m9580 m961C m96B6 m96B9 m96E8 m9751 m975E m9762 m9769 m97CB m97ED m97F3 m9801 m98A8 m98DB m98DF
  m9996 m9999 m99AC m9AA8 m9AD8 m9ADF m9B25 m9B2F m9B32 m9B3C m9B5A m9CE5 m9E75 m9E7F m9EA5 m9EBB
  m9EC3 m9ECD m9ED1 m9EF9 m9EFD m9F0E m9F13 m9F20 m9F3B m9F4A m9F52 m9F8D m9F9C m9FA0 2Ax m20 v
  m2E 33v m3012 v m5341 2m5344 5v x 56v 2x 2v m20.3099 m20.309A 2v m3088.308A 5Fv m30B3.30C8 5x
  2Bv x 2m1100 m11AA m1102 2m11AC 3m1103 6m11B0 m111A 3m1106 m1121 Am1109 15m1161 i 2m1114 2m11C7
  m11CC m11CE m11D3 m11D7 m11D9 m111C m11DD m11DF 2m111D m1120 2m1122 m1127 m1129 5m112B m1132
  m1136 m1140 m1147 m114C 2m11F1 3m1157 2m1184 m1188 2m1191 m1194 m119E m11A1 x 2v m4E00 m4E8C
  m4E09 m56DB m4E0A m4E2D m4E0B m7532 m4E59 m4E19 m4E01 m5929 m5730 m4EBA 46v Ax 10v m28.1100.29
  m28.1102.29 m28.1103.29 m28.1105.29 m28.1106.29 m28.1107.29 m28.1109.29 m28.110B.29 m28.110C.29
  m28.110E.29 m28.110F.29 m28.1110.29 m28.1111.29 m28.1112.29 m28.AC00.29 m28.B098.29 m28.B2E4.29
  m28.B77C.29 m28.B9C8.29 m28.BC14.29 m28.C0AC.29 m28.C544.29 m28.C790.29 m28.CC28.29 m28.CE74.29
  m28.D0C0.29 m28.D30C.29 m28.D558.29 m28.C8FC.29 m28.C624.C804.29 m28.C624.D6C4.29 x m28.4E00.29
  m28.4E8C.29 m28.4E09.29 m28.56DB.29 m28.4E94.29 m28.516D.29 m28.4E03.29 m28.516B.29 m28.4E5D.29
  m28.5341.29 m28.6708.29 m28.706B.29 m28.6C34.29 m28.6728.29 m28.91D1.29 m28.571F.29 m28.65E5.29
  m28.682A.29 m28.6709.29 m28.793E.29 m28.540D.29 m28.7279.29 m28.8CA1.29 m28.795D.29 m28.52B4.29
  m28.4EE3.29 m28.547C.29 m28.5B66.29 m28.76E3.29 m28.4F01.29 m28.8CC7.29 m28.5354.29 m28.796D.29
  m28.4F11.29 m28.81EA.29 m28.81F3.29 m554F m5E7C m6587 m7B8F 8v m70.74.65 m32.31 m32.32 m32.33
  m32.34 m32.35 m32.36 m32.37 m32.38 m32.39 m33.30 m33.31 m33.32 m33.33 m33.34 m33.35 m1100 2m1102
  3m1105 m1109 2m110B 5m110E mAC00 mB098 mB2E4 mB77C mB9C8 mBC14 mC0AC mC544 mC790 mCC28 mCE74
  mD0C0 mD30C mD558 mCC38.ACE0 mC8FC.C758 mC6B0 v m4E00 m4E8C m4E09 m56DB m4E94 m516D m4E03 m516B
  m4E5D m5341 m6708 m706B m6C34 m6728 m91D1 m571F m65E5 m682A m6709 m793E m540D m7279 m8CA1 m795D
  m52B4 m79D8 m7537 m5973 m9069 m512A m5370 m6CE8 m9805 m4F11 m5199 m6B63 m4E0A m4E2D m4E0B m5DE6
  m53F3 m533B m5B97 m5B66 m76E3 m4F01 m8CC7 m5354 m591C m33.36 m33.37 m33.38 m33.39 m34.30 m34.31
  m34.32 m34.33 m34.34 m34.35 m34.36 m34.37 m34.38 m34.39 m35.30 m31.6708 m32.6708 m33.6708
  m34.6708 m35.6708 m36.6708 m37.6708 m38.6708 m39.6708 m31.30.6708 m31.31.6708 m31.32.6708 m68.67
  m65.72.67 m65.76 m6C.74.64 m30A2 m30A4 m30A6 m30A8 2m30AA m30AD m30AF m30B1 m30B3 m30B5 m30B7
  m30B9 m30BB m30BD m30BF m30C1 m30C4 m30C6 m30C8 6m30CA m30D2 m30D5 m30D8 m30DB 5m30DE m30E4
  m30E6 6m30E8 4m30EF m4EE4.548C m30A2.30D1.30FC.30C8 m30A2.30EB.30D5.30A1 m30A2.30F3.30DA.30A2
  m30A2.30FC.30EB m30A4.30CB.30F3.30B0 m30A4.30F3.30C1 m30A6.30A9.30F3 m30A8.30B9.30AF.30FC.30C9
  m30A8.30FC.30AB.30FC m30AA.30F3.30B9 m30AA.30FC.30E0 m30AB.30A4.30EA m30AB.30E9.30C3.30C8
  m30AB.30ED.30EA.30FC m30AC.30ED.30F3 m30AC.30F3.30DE m30AE.30AC m30AE.30CB.30FC
  m30AD.30E5.30EA.30FC m30AE.30EB.30C0.30FC m30AD.30ED m30AD.30ED.30B0.30E9.30E0
  m30AD.30ED.30E1.30FC.30C8.30EB m30AD.30ED.30EF.30C3.30C8 m30B0.30E9.30E0
  m30B0.30E9.30E0.30C8.30F3 m30AF.30EB.30BC.30A4.30ED m30AF.30ED.30FC.30CD m30B1.30FC.30B9
  m30B3.30EB.30CA m30B3.30FC.30DD m30B5.30A4.30AF.30EB m30B5.30F3.30C1.30FC.30E0
  m30B7.30EA.30F3.30B0 m30BB.30F3.30C1 m30BB.30F3.30C8 m30C0.30FC.30B9 m30C7.30B7 m30C9.30EB
  m30C8.30F3 m30CA.30CE m30CE.30C3.30C8 m30CF.30A4.30C4 m30D1.30FC.30BB.30F3.30C8 m30D1.30FC.30C4
  m30D0.30FC.30EC.30EB m30D4.30A2.30B9.30C8.30EB m30D4.30AF.30EB m30D4.30B3 m30D3.30EB
  m30D5.30A1.30E9.30C3.30C9 m30D5.30A3.30FC.30C8 m30D6.30C3.30B7.30A7.30EB m30D5.30E9.30F3
  m30D8.30AF.30BF.30FC.30EB m30DA.30BD m30DA.30CB.30D2 m30D8.30EB.30C4 m30DA.30F3.30B9
  m30DA.30FC.30B8 m30D9.30FC.30BF m30DD.30A4.30F3.30C8 m30DC.30EB.30C8 m30DB.30F3 m30DD.30F3.30C9
  m30DB.30FC.30EB m30DB.30FC.30F3 m30DE.30A4.30AF.30ED m30DE.30A4.30EB m30DE.30C3.30CF
  m30DE.30EB.30AF m30DE.30F3.30B7.30E7.30F3 m30DF.30AF.30ED.30F3 m30DF.30EA
  m30DF.30EA.30D0.30FC.30EB m30E1.30AC m30E1.30AC.30C8.30F3 m30E1.30FC.30C8.30EB m30E4.30FC.30C9
  m30E4.30FC.30EB m30E6.30A2.30F3 m30EA.30C3.30C8.30EB m30EA.30E9 m30EB.30D4.30FC
  m30EB.30FC.30D6.30EB m30EC.30E0 m30EC.30F3.30C8.30B2.30F3 m30EF.30C3.30C8 m30.70B9 m31.70B9
  m32.70B9 m33.70B9 m34.70B9 m35.70B9 m36.70B9 m37.70B9 m38.70B9 m39.70B9 m31.30.70B9 m31.31.70B9
  m31.32.70B9 m31.33.70B9 m31.34.70B9 m31.35.70B9 m31.36.70B9 m31.37.70B9 m31.38.70B9 m31.39.70B9
  m32.30.70B9 m32.31.70B9 m32.32.70B9 m32.33.70B9 m32.34.70B9 m68.70.61 m64.61 m61.75 m62.61.72
  m6F.76 m70.63 m64.6D m64.6D.32 m64.6D.33 m69.75 m5E73.6210 m662D.548C m5927.6B63 m660E.6CBB
  m682A.5F0F.4F1A.793E m70.61 m6E.61 m3BC.61 m6D.61 m6B.61 m6B.62 m6D.62 m67.62 m63.61.6C
  m6B.63.61.6C m70.66 m6E.66 m3BC.66 m3BC.67 m6D.67 m6B.67 m68.7A m6B.68.7A m6D.68.7A m67.68.7A
  m74.68.7A m3BC.6C m6D.6C m64.6C m6B.6C m66.6D m6E.6D m3BC.6D m6D.6D m63.6D m6B.6D m6D.6D.32
  m63.6D.32 m6D.32 m6B.6D.32 m6D.6D.33 m63.6D.33 m6D.33 m6B.6D.33 m6D.2215.73 m6D.2215.73.32
  m70.61 m6B.70.61 m6D.70.61 m67.70.61 m72.61.64 m72.61.64.2215.73 m72.61.64.2215.73.32 m70.73
  m6E.73 m3BC.73 m6D.73 m70.76 m6E.76 m3BC.76 m6D.76 m6B.76 m6D.76 m70.77 m6E.77 m3BC.77 m6D.77
  m6B.77 m6D.77 m6B.3C9 m6D.3C9 x m62.71 m63.63 m63.64 m63.2215.6B.67 x m64.62 m67.79 m68.61
  m68.70 m69.6E m6B.6B m6B.6D m6B.74 m6C.6D m6C.6E m6C.6F.67 m6C.78 m6D.62 m6D.69.6C m6D.6F.6C
  m70.68 x m70.70.6D m70.72 m73.72 m73.76 m77.62 m76.2215.6D m61.2215.6D m31.65E5 m32.65E5
  m33.65E5 m34.65E5 m35.65E5 m36.65E5 m37.65E5 m38.65E5 m39.65E5 m31.30.65E5 m31.31.65E5
  m31.32.65E5 m31.33.65E5 m31.34.65E5 m31.35.65E5 m31.36.65E5 m31.37.65E5 m31.38.65E5 m31.39.65E5
  m32.30.65E5 m32.31.65E5 m32.32.65E5 m32.33.65E5 m32.34.65E5 m32.35.65E5 m32.36.65E5 m32.37.65E5
  m32.38.65E5 m32.39.65E5 m33.30.65E5 m33.31.65E5 m67.61.6C 708Dv 3x 37v 9x 15Cv 14x 2Ep 12v 1Cp
  m44A m44C 5Av 8x 22v Ep 2v 3Ep mA76F 8v 4p m1D79 Ap 3v mA78C v m265 2v 4p 2v 14p m266 m25C m261
  m26C m26A v m29E m287 m29D mAB53 10p mA794 m282 m1D8E 4p m264 10p m19B 14x m73 m63 m66 m71 mA7F6
  2v m127 m153 33v 3x Av 6x 38v 8x 46v 8x Cv 6x 74v Bx 1Ev 3x 4Ev x Bv 4x 21v x 37v 9x Ev 2x Av 2x
  67v 18x 1Cv Ax 6v 2x 6v 2x 6v 9x 7v x 7v x 2Cv mA727 mAB37 m26B mAB52 9v m28D 2v 4x 50m13A0 2Ev
  2x Av 6x 2BA4v Cx 17v 4x 31v 2104x m8C48 m66F4 m8ECA m8CC8 m6ED1 m4E32 m53E5 m9F9C m9F9C m5951
  m91D1 m5587 m5948 m61F6 m7669 m7F85 m863F m87BA m88F8 m908F m6A02 m6D1B m70D9 m73DE m843D m916A
  m99F1 m4E82 m5375 m6B04 m721B m862D m9E1E m5D50 m6FEB m85CD m8964 m62C9 m81D8 m881F m5ECA m6717
  m6D6A m72FC m90CE m4F86 m51B7 m52DE m64C4 m6AD3 m7210 m76E7 m8001 m8606 m865C m8DEF m9732 m9B6F
  m9DFA m788C m797F m7DA0 m83C9 m9304 m9E7F m8AD6 m58DF m5F04 m7C60 m807E m7262 m78CA m8CC2 m96F7
  m58D8 m5C62 m6A13 m6DDA m6F0F m7D2F m7E37 m964B m52D2 m808B m51DC m51CC m7A1C m7DBE m83F1 m9675
  m8B80 m62CF m6A02 m8AFE m4E39 m5BE7 m6012 m7387 m7570 m5317 m78FB m4FBF m5FA9 m4E0D m6CCC m6578
  m7D22 m53C3 m585E m7701 m8449 m8AAA m6BBA m8FB0 m6C88 m62FE m82E5 m63A0 m7565 m4EAE m5169 m51C9
  m6881 m7CE7 m826F m8AD2 m91CF m52F5 m5442 m5973 m5EEC m65C5 m6FFE m792A m95AD m9A6A m9E97 m9ECE
  m529B m66C6 m6B77 m8F62 m5E74 m6190 m6200 m649A m6F23 m7149 m7489 m79CA m7DF4 m806F m8F26 m84EE
  m9023 m934A m5217 m52A3 m54BD m70C8 m88C2 m8AAA m5EC9 m5FF5 m637B m6BAE m7C3E m7375 m4EE4 m56F9
  m5BE7 m5DBA m601C m73B2 m7469 m7F9A m8046 m9234 m96F6 m9748 m9818 m4F8B m79AE m91B4 m96B8 m60E1
  m4E86 m50DA m5BEE m5C3F m6599 m6A02 m71CE m7642 m84FC m907C m9F8D m6688 m962E m5289 m677B m67F3
  m6D41 m6E9C m7409 m7559 m786B m7D10 m985E m516D m622E m9678 m502B m5D19 m6DEA m8F2A m5F8B m6144
  m6817 m7387 m9686 m5229 m540F m5C65 m6613 m674E m68A8 m6CE5 m7406 m75E2 m7F79 m88CF m88E1 m91CC
  m96E2 m533F m6EBA m541D m71D0 m7498 m85FA m96A3 m9C57 m9E9F m6797 m6DCB m81E8 m7ACB m7B20 m7C92
  m72C0 m7099 m8B58 m4EC0 m8336 m523A m5207 m5EA6 m62D3 m7CD6 m5B85 m6D1E m66B4 m8F3B m884C m964D
  m898B m5ED3 m5140 m55C0 2v m585A v m6674 2v m51DE m732A m76CA m793C m795E m7965 m798F m9756
  m7CBE m7FBD v m8612 v m8AF8 2v m9038 m90FD 3v m98EF m98FC m9928 m9DB4 m90DE m96B7 m4FAE m50E7
  m514D m52C9 m52E4 m5351 m559D m5606 m5668 m5840 m58A8 m5C64 m5C6E m6094 m6168 m618E m61F2 m654F
  m65E2 m6691 m6885 m6D77 m6E1A m6F22 m716E m722B m7422 m7891 m793E m7949 m7948 m7950 m7956 m795D
  2m798D m7A40 m7A81 m7BC0 m7DF4 m7E09 m7E41 m7F72 m8005 m81ED m8279 m8279 m8457 m8910 m8996 m8B01
  m8B39 m8CD3 m8D08 m8FB6 m9038 m96E3 m97FF m983B m6075 m242EE m8218 2x m4E26 m51B5 m5168 m4F80
  m5145 m5180 m52C7 m52FA m559D m5555 m5599 m55E2 m585A m58B3 m5944 m5954 m5A62 m5B28 m5ED2 m5ED9
  m5F69 m5FAD m60D8 m614E m6108 m618E m6160 m61F2 m6234 m63C4 m641C m6452 m6556 m6674 m6717 m671B
  m6756 m6B79 m6BBA m6D41 m6EDB m6ECB m6F22 m701E m716E m77A7 m7235 m72AF m732A m7471 m7506 m753B
  m761D m761F m76CA m76DB m76F4 m774A m7740 m78CC m7AB1 m7BC0 m7C7B m7D5B m7DF4 m7F3E m8005 m8352
  m83EF m8779 m8941 m8986 m8996 m8ABF m8AF8 m8ACB m8B01 m8AFE m8AED m8B39 m8B8A m8D08 m8F38 m9072
  m9199 m9276 m967C m96E3 m9756 m97DB m97FF m980B m983B m9B12 m9F9C m2284A m22844 m233D5 m3B9D
  m4018 m4039 m25249 m25CD0 m27ED3 m9F43 m9F8E 26x m66.66 m66.69 m66.6C m66.66.69 m66.66.6C m73.74
  m73.74 Cx m574.576 m574.565 m574.56B m57E.576 m574.56D 5x m5D9.5B4 v m5F2.5B7 m5E2 m5D0 2m5D3
  3m5DB m5E8 m5EA m2B m5E9.5C1 m5E9.5C2 m5E9.5BC.5C1 m5E9.5BC.5C2 m5D0.5B7 m5D0.5B8 m5D0.5BC
  m5D1.5BC m5D2.5BC m5D3.5BC m5D4.5BC m5D5.5BC m5D6.5BC x m5D8.5BC m5D9.5BC m5DA.5BC m5DB.5BC
  m5DC.5BC x m5DE.5BC x m5E0.5BC m5E1.5BC x m5E3.5BC m5E4.5BC x m5E6.5BC m5E7.5BC m5E8.5BC
  m5E9.5BC m5EA.5BC m5D5.5B9 m5D1.5BF m5DB.5BF m5E4.5BF m5D0.5DC m671 m671 m67B m67B m67B m67B
  m67E m67E m67E m67E m680 m680 m680 m680 m67A m67A m67A m67A m67F m67F m67F m67F m679 m679 m679
  m679 m6A4 m6A4 m6A4 m6A4 m6A6 m6A6 m6A6 m6A6 m684 m684 m684 m684 m683 m683 m683 m683 m686 m686
  m686 2m686 m687 m687 m687 m68D m68D m68C m68C m68E m68E m688 m688 m698 m698 m691 m691 m6A9 m6A9
  m6A9 m6A9 m6AF m6AF m6AF m6AF m6B3 m6B3 m6B3 m6B3 m6B1 m6B1 m6B1 m6B1 m6BA 2m6BA m6BB m6BB m6BB
  m6C0 2m6C0 m6C1 m6C1 m6C1 m6BE m6BE m6BE m6BE m6D2 2m6D2 m6D3 21v m6AD m6AD m6AD m6AD m6C7 m6C7
  m6C6 m6C6 m6C8 m6C8 m6C7.674 m6CB m6CB m6C5 m6C5 m6C9 m6C9 m6D0 m6D0 m6D0 m6D0 m649 m649
  m626.627 m626.627 m626.6D5 m626.6D5 m626.648 m626.648 m626.6C7 m626.6C7 m626.6C6 m626.6C6
  m626.6C8 m626.6C8 m626.6D0 m626.6D0 m626.6D0 m626.649 m626.649 m626.649 m6CC m6CC m6CC m6CC
  m626.62C m626.62D m626.645 m626.649 m626.64A m628.62C m628.62D m628.62E m628.645 m628.649
  m628.64A m62A.62C m62A.62D m62A.62E m62A.645 m62A.649 m62A.64A m62B.62C m62B.645 m62B.649
  m62B.64A m62C.62D m62C.645 m62D.62C m62D.645 m62E.62C m62E.62D m62E.645 m633.62C m633.62D
  m633.62E m633.645 m635.62D m635.645 m636.62C m636.62D m636.62E m636.645 m637.62D m637.645
  m638.645 m639.62C m639.645 m63A.62C m63A.645 m641.62C m641.62D m641.62E m641.645 m641.649
  m641.64A m642.62D m642.645 m642.649 m642.64A m643.627 m643.62C m643.62D m643.62E m643.644
  m643.645 m643.649 m643.64A m644.62C m644.62D m644.62E m644.645 m644.649 m644.64A m645.62C
  m645.62D m645.62E m645.645 m645.649 m645.64A m646.62C m646.62D m646.62E m646.645 m646.649
  m646.64A m647.62C m647.645 m647.649 m647.64A m64A.62C m64A.62D m64A.62E m64A.645 m64A.649
  m64A.64A m630.670 m631.670 m649.670 m20.64C.651 m20.64D.651 m20.64E.651 m20.64F.651 m20.650.651
  m20.651.670 m626.631 m626.632 m626.645 m626.646 m626.649 m626.64A m628.631 m628.632 m628.645
  m628.646 m628.649 m628.64A m62A.631 m62A.632 m62A.645 m62A.646 m62A.649 m62A.64A m62B.631
  m62B.632 m62B.645 m62B.646 m62B.649 m62B.64A m641.649 m641.64A m642.649 m642.64A m643.627
  m643.644 m643.645 m643.649 m643.64A m644.645 m644.649 m644.64A m645.627 m645.645 m646.631
  m646.632 m646.645 m646.646 m646.649 m646.64A m649.670 m64A.631 m64A.632 m64A.645 m64A.646
  m64A.649 m64A.64A m626.62C m626.62D m626.62E m626.645 m626.647 m628.62C m628.62D m628.62E
  m628.645 m628.647 m62A.62C m62A.62D m62A.62E m62A.645 m62A.647 m62B.645 m62C.62D m62C.645
  m62D.62C m62D.645 m62E.62C m62E.645 m633.62C m633.62D m633.62E m633.645 m635.62D m635.62E
  m635.645 m636.62C m636.62D m636.62E m636.645 m637.62D m638.645 m639.62C m639.645 m63A.62C
  m63A.645 m641.62C m641.62D m641.62E m641.645 m642.62D m642.645 m643.62C m643.62D m643.62E
  m643.644 m643.645 m644.62C m644.62D m644.62E m644.645 m644.647 m645.62C m645.62D m645.62E
  m645.645 m646.62C m646.62D m646.62E m646.645 m646.647 m647.62C m647.645 m647.670 m64A.62C
  m64A.62D m64A.62E m64A.645 m64A.647 m626.645 m626.647 m628.645 m628.647 m62A.645 m62A.647
  m62B.645 m62B.647 m633.645 m633.647 m634.645 m634.647 m643.644 m643.645 m644.645 m646.645
  m646.647 m64A.645 m64A.647 m640.64E.651 m640.64F.651 m640.650.651 m637.649 m637.64A m639.649
  m639.64A m63A.649 m63A.64A m633.649 m633.64A m634.649 m634.64A m62D.649 m62D.64A m62C.649
  m62C.64A m62E.649 m62E.64A m635.649 m635.64A m636.649 m636.64A m634.62C m634.62D m634.62E
  m634.645 m634.631 m633.631 m635.631 m636.631 m637.649 m637.64A m639.649 m639.64A m63A.649
  m63A.64A m633.649 m633.64A m634.649 m634.64A m62D.649 m62D.64A m62C.649 m62C.64A m62E.649
  m62E.64A m635.649 m635.64A m636.649 m636.64A m634.62C m634.62D m634.62E m634.645 m634.631
  m633.631 m635.631 m636.631 m634.62C m634.62D m634.62E m634.645 m633.647 m634.647 m637.645
  m633.62C m633.62D m633.62E m634.62C m634.62D m634.62E m637.645 m638.645 m627.64B m627.64B 12v
  m62A.62C.645 m62A.62D.62C m62A.62D.62C m62A.62D.645 m62A.62E.645 m62A.645.62C m62A.645.62D
  m62A.645.62E m62C.645.62D m62C.645.62D m62D.645.64A m62D.645.649 m633.62D.62C m633.62C.62D
  m633.62C.649 m633.645.62D m633.645.62D m633.645.62C m633.645.645 m633.645.645 m635.62D.62D
  m635.62D.62D m635.645.645 m634.62D.645 m634.62D.645 m634.62C.64A m634.645.62E m634.645.62E
  m634.645.645 m634.645.645 m636.62D.649 m636.62E.645 m636.62E.645 m637.645.62D m637.645.62D
  m637.645.645 m637.645.64A m639.62C.645 m639.645.645 m639.645.645 m639.645.649 m63A.645.645
  m63A.645.64A m63A.645.649 m641.62E.645 m641.62E.645 m642.645.62D m642.645.645 m644.62D.645
  m644.62D.64A m644.62D.649 m644.62C.62C m644.62C.62C m644.62E.645 m644.62E.645 m644.645.62D
  m644.645.62D m645.62D.62C m645.62D.645 m645.62D.64A m645.62C.62D m645.62C.645 m645.62E.62C
  m645.62E.645 2v m645.62C.62E m647.645.62C m647.645.645 m646.62D.645 m646.62D.649 m646.62C.645
  m646.62C.645 m646.62C.649 m646.645.64A m646.645.649 m64A.645.645 m64A.645.645 m628.62E.64A
  m62A.62C.64A m62A.62C.649 m62A.62E.64A m62A.62E.649 m62A.645.64A m62A.645.649 m62C.645.64A
  m62C.62D.649 m62C.645.649 m633.62E.649 m635.62D.64A m634.62D.64A m636.62D.64A m644.62C.64A
  m644.645.64A m64A.62D.64A m64A.62C.64A m64A.645.64A m645.645.64A m642.645.64A m646.62D.64A
  m642.645.62D m644.62D.645 m639.645.64A m643.645.64A m646.62C.62D m645.62E.64A m644.62C.645
  m643.645.645 m644.62C.645 m646.62C.62D m62C.62D.64A m62D.62C.64A m645.62C.64A m641.645.64A
  m628.62D.64A m643.645.645 m639.62C.645 m635.645.645 m633.62E.64A m646.62C.64A 8v 20x
  m635.644.6D2 m642.644.6D2 m627.644.644.647 m627.643.628.631 m645.62D.645.62F m635.644.639.645
  m631.633.648.644 m639.644.64A.647 m648.633.644.645 m635.644.649
  m635.644.649.20.627.644.644.647.20.639.644.64A.647.20.648.633.644.645
  m62C.644.20.62C.644.627.644.647 m631.6CC.627.644 3v 10i m2C m3001 x 2m3A m21 m3F 2m3016 7x 10v x
  m2014 m2013 m5F m5F 2m28 m7B m7D 2m3014 2m3010 2m300A 2m3008 4m300C 2v m5B m5D m20.305 m20.305
  m20.305 m20.305 m5F m5F m5F m2C m3001 2x m3B m3A m3F m21 m2014 2m28 m7B m7D 2m3014 m23 m26 2m2A
  m2D m3C m3E m3D x m5C 2m24 m40 4x m20.64B m640.64B m20.64C v m20.64D x m20.64E m640.64E m20.64F
  m640.64F m20.650 m640.650 m20.651 m640.651 m20.652 m640.652 2m621 2m622 2m623 2m624 2m625 m626
  m626 2m626 2m627 m628 m628 2m628 2m629 m62A m62A 2m62A m62B m62B 2m62B m62C m62C 2m62C m62D m62D
  2m62D m62E m62E 2m62E 2m62F 2m630 2m631 2m632 m633 m633 2m633 m634 m634 2m634 m635 m635 2m635
  m636 m636 2m636 m637 m637 2m637 m638 m638 2m638 m639 m639 2m639 m63A m63A m63A m641 m641 m641
  2m641 m642 m642 2m642 m643 m643 2m643 m644 m644 2m644 m645 m645 2m645 m646 m646 2m646 m647 m647
  2m647 2m648 2m649 m64A m64A m64A m644.622 m644.622 m644.623 m644.623 m644.625 m644.625 m644.627
  m644.627 2x i x 20m21 1Am61 24m5B 2m2985 m2E 2m300C m3001 m30FB m30F2 m30A1 m30A3 m30A5 m30A7
  m30A9 m30E3 m30E5 m30E7 m30C3 m30FC m30A2 m30A4 m30A6 m30A8 2m30AA m30AD m30AF m30B1 m30B3 m30B5
  m30B7 m30B9 m30BB m30BD m30BF m30C1 m30C4 m30C6 m30C8 6m30CA m30D2 m30D5 m30D8 m30DB 5m30DE
  m30E4 m30E6 6m30E8 m30EF m30F3 2m3099 i 2m1100 m11AA m1102 2m11AC 3m1103 6m11B0 m111A 3m1106
  m1121 Am1109 3x 6m1161 2x 6m1167 2x 6m116D 2x 3m1173 3x 2mA2 mAC m20.304 mA6 mA5 m20A9 x m2502
  4m2190 m25A0 m25CB 11x Cv x 1Av x 13v x 2v x Fv 2x Ev 22x 7Bv 5x 3v 4x 2Dv 3x 58v x Dv 3x v 2Fx
  2Ev 82x 1Dv 3x 31v Fx 1Cv 4x 24v 9x 1Ev 5x 2Bv 5x 1Ev x 25v 4x Ev 2Ax 28m10428 76v 2x Av 6x
  24m104D8 4x 24v 4x 28v 8x 34v Bx v Bm10597 x Fm105A3 x 7m105B3 x 2m105BB x Bv x Fv x 7v x 2v 3x
  34v Cx 137v 9x 16v Ax 8v 18x v 2m2D0 mE6 m299 m253 x m2A3 mAB66 m2A5 m2A4 2m256 m1D91 m258 m25E
  m2A9 m264 m262 m260 m29B m127 m29C m267 m284 2m2AA m26C m1DF04 mA78E m26E m1DF05 m28E m1DF06 mF8
  2m276 m71 m27A m1DF08 2m27D m280 m2A8 m2A6 mAB67 m2A7 m288 m2C71 x m28F 2m2A1 m298 3m1C0 m1DF0A
  m1DF1E 45x 6v 2x v x 2Cv x 2v 3x v 2x 17v x 48v 8x 9v 30x 13v x 2v 5x 21v 3x 1Bv 5x 1Bv 26x 38v
  4x 14v 2x 32v x 2v 5x 8v x 3v x 1Dv 2x 3v 4x Av 7x 9v 7x 40v 20x 27v 4x Cv 9x 36v 3x 1Dv 2x 1Bv
  5x 1Av 7x 4v Cx 7v 50x 49v 37x 33m10CC0 Dx 33v 7x 2Ev 8x Av 6x 10v 16m10D70 3x 1Dv 8x 2v D0x 1Fv
  x 2Av x 3v 2x 2v 10x 6v 8x 9v 21x 2Ev 8x 2Av 16x 1Av 26x 1Cv 14x 17v 9x 4Ev 4x 24v 9x 3Ev x 5v
  Dx 19v 7x Av 6x 35v x 12v 8x 27v 9x 60v x 14v Bx 12v x 2Fv 3Ex 7v x v x 4v x Fv x Bv 6x 3Bv 5x
  Av 6x 4v x 8v 2x 2v 2x 16v x 7v x 2v x 5v x Av 2x 2v 2x 3v 2x v 6x v 5x 7v 2x 7v 3x 5v Bx Av x v
  2x v x 26v x Av x v 2x v x 4v x Av x 2v 8x 2v 1Dx 5Cv x 5v 1Ex 48v 8x Av A6x 36v 2x 26v 22x 45v
  Bx Av 6x Dv 13x 3Av 6x Av 6x 14v 1Cx 1Bv 2x Fv 4x 17v B9x 3Cv 64x 20m118C0 33v Cx 8v 2x v 2x 8v
  x 2v x 1Ev x 2v 2x Cv 9x Av 46x 8v 2x 2Ev 2x Bv 1Bx 48v 8x 53v Dx 49v 7x Av 56x 8v 58x 22v Ex Av
  6x 9v x 2Dv x Ev Ax 1Dv 3x 20v 2x 16v x Ev 49x 7v x 2v x 2Cv 3x v x 2v x 9v 8x Av 6x 6v x 2v x
  25v x 2v x 6v 7x Av 6x 2Cv 4x Av F6x 19v 7x 11v x 29v 3x 1Dv 55x v Fx 32v Dx 39Bv 66x 6Fv x 5v
  Bx C4v A4Cx 63v Dx 430v 10x 16v Ax F9Bv 5x 247v 1AB9x 3Av 6C6x 239v 7x 1Fv x Av 4x 51v x Av 6x
  1Ev 2x 6v Ax 46v Ax Av x 7v x 15v 5x 13v 1B0x 3Av C6x 20m16E60 3Bv 5x 19m16EBB 2x 19v 2Cx 4Bv 4x
  39v 7x 11v 40x 5v Bx 7v 9x 1CD6v 29x 20v 61x 73v 21FDx 4v x 7v x 2v x 123v Fx v 1Dx 3v 2x v Ex
  4v 8x 18Cv 904x 6Bv 5x Dv 3x 9v 7x Av 2x 4v 4i F5Cx D6v 1Am61 Am30 3v 3x 1B4v 6x 17v Fx 11v Fx
  2Ev 2x 17v 9x 74v 3Cx F6v Ax 27v 2x 35v m1D157.1D165 m1D158.1D165 m1D158.1D165.1D16E
  m1D158.1D165.1D16F m1D158.1D165.1D170 m1D158.1D165.1D171 m1D158.1D165.1D172 Ev 8i 40v
  m1D1B9.1D165 m1D1BA.1D165 m1D1B9.1D165.1D16E m1D1BA.1D165.1D16E m1D1B9.1D165.1D16F
  m1D1BA.1D165.1D16F 2Av 15x 46v 7Ax 14v Cx 14v Cx 57v 9x 19v 87x 1Am61 1Am61 1Am61 7m61 x 12m69
  1Am61 1Am61 m61 x 2m63 2x m67 2x 2m6A 2x 4m6E x 8m73 4m61 x m66 x 7m68 x Bm70 1Am61 1Am61 2m61 x
  4m64 2x 8m6A x 7m73 x 1Am61 2m61 x 4m64 x 5m69 x m6F 3x 7m73 x 1Am61 1Am61 1Am61 1Am61 1Am61
  1Am61 1Am61 1Am61 1Am61 1Am61 1Am61 1Am61 1Am61 m131 m237 2x 11m3B1 m3B8 7m3C3 m2207 11m3B1 m3C3
  7m3C3 m2202 m3B5 m3B8 m3BA m3C6 m3C1 m3C0 11m3B1 m3B8 7m3C3 m2207 11m3B1 m3C3 7m3C3 m2202 m3B5
  m3B8 m3BA m3C6 m3C1 m3C0 11m3B1 m3B8 7m3C3 m2207 11m3B1 m3C3 7m3C3 m2202 m3B5 m3B8 m3BA m3C6
  m3C1 m3C0 11m3B1 m3B8 7m3C3 m2207 11m3B1 m3C3 7m3C3 m2202 m3B5 m3B8 m3BA m3C6 m3C1 m3C0 11m3B1
  m3B8 7m3C3 m2207 11m3B1 m3C3 7m3C3 m2202 m3B5 m3B8 m3BA m3C6 m3C1 m3C0 m3DD m3DD 2x Am30 Am30
  Am30 Am30 Am30 28Cv Fx 5v x Fv 450x 1Fv 6x 6v D5x 7v x 11v 2x 7v x 2v x 5v 5x 9m430 3m43A Bm43E
  m44B 2m44D mA689 m4D9 m456 m458 m4E9 m4AF m4CF 9m430 2m43A 2m43E m441 6m443 2m44A m491 m456 m455
  m45F m4AB mA651 m4B1 21x v 70x 2Dv 3x Ev 2x Av 4x 2v 140x 1Fv 11x 3Av 5x v 1D0x 2Av D6x 2Bv 4x v
  C0x 1Fv x 16v 8x 2v E0x 7v x 4v x 2v x Fv x C5v 2x 10v 29x 22m1E922 2Av 4x Av 4x 2v 311x 44v 4Cx
  3Dv C2x 2m627 m62C m62F x m648 m632 m62D m637 m64A 4m643 m633 m639 m641 m635 m642 m631 m634
  2m62A m62E m630 m636 m638 m63A m66E m6BA m6A1 m66F x m628 m62C x m647 2x m62D x m64A 4m643 m633
  m639 m641 m635 m642 x m634 2m62A m62E x m636 x m63A 6x m62C 4x m62D x m64A x m644 x m646 m633
  m639 x m635 m642 x m634 2x m62E x m636 x m63A x m6BA x m66F x m628 m62C x m647 2x m62D m637 m64A
  m643 x 2m645 m633 m639 m641 m635 m642 x m634 2m62A m62E x m636 m638 m63A m66E x m6A1 x 2m627
  m62C m62F 2m647 m632 m62D m637 m64A x 3m644 m633 m639 m641 m635 m642 m631 m634 2m62A m62E m630
  m636 m638 m63A 5x m628 m62C m62F x m648 m632 m62D m637 m64A x 3m644 m633 m639 m641 m635 m642
  m631 m634 2m62A m62E m630 m636 m638 m63A 34x 2v 10Ex 2Cv 4x 64v Cx Fv 2x Fv x Fv x 25v Bx m30.2C
  m31.2C m32.2C m33.2C m34.2C m35.2C m36.2C m37.2C m38.2C m39.2C 5v m28.61.29 m28.62.29 m28.63.29
  m28.64.29 m28.65.29 m28.66.29 m28.67.29 m28.68.29 m28.69.29 m28.6A.29 m28.6B.29 m28.6C.29
  m28.6D.29 m28.6E.29 m28.6F.29 m28.70.29 m28.71.29 m28.72.29 m28.73.29 m28.74.29 m28.75.29
  m28.76.29 m28.77.29 m28.78.29 m28.79.29 m28.7A.29 m3014.73.3015 m63 m72 m63.64 m77.7A v 1Am61
  m68.76 m6D.76 m73.64 m73.73 m70.70.76 m77.63 1Av m6D.63 m6D.64 m6D.72 23v m64.6A 1Dv 38x 1Av
  m307B.304B m30B3.30B3 m30B5 Dx m624B m5B57 m53CC m30C7 m4E8C m591A m89E3 m5929 m4EA4 m6620 m7121
  m6599 m524D m5F8C m518D m65B0 m521D m7D42 m751F m8CA9 m58F0 m5439 m6F14 m6295 m6355 m4E00 m4E09
  m904A m5DE6 m4E2D m53F3 m6307 m8D70 m6253 m7981 m7A7A m5408 m6E80 m6709 m6708 m7533 m5272 m55B6
  m914D 4x m3014.672C.3015 m3014.4E09.3015 m3014.4E8C.3015 m3014.5B89.3015 m3014.70B9.3015
  m3014.6253.3015 m3014.76D7.3015 m3014.52DD.3015 m3014.6557.3015 7x m5F97 m53EF Ex 6v 9Ax 3D9v 3x
  11v 3x Dv 3x DAv 6x Cv 4x v Fx Cv 4x 38v 8x Av 6x 28v 8x 1Ev 2x Cv 4x 2v Ex 9v 27x 158v 8x Ev 2x
  Dv 3x Bv 3x 39v x v 4x 10v 2x Cv 4x Av 7x 93v x 5Cv Am30 v 405x A6E0v 20x 111Ev 2x 168Ev 2x
  1D31v Fx 26Ev 9A2x m4E3D m4E38 m4E41 m20122 m4F60 m4FAE m4FBB m5002 m507A m5099 m50E7 m50CF
  m349E m2063A m514D m5154 m5164 m5177 m2051C m34B9 m5167 m518D m2054B m5197 m51A4 m4ECC m51AC
  m51B5 m291DF m51F5 m5203 m34DF m523B m5246 m5272 m5277 m3515 m52C7 m52C9 m52E4 m52FA 2m5305
  m5317 m5349 m5351 m535A m5373 m537D m537F m537F m537F m20A2C m7070 m53CA m53DF m20B63 m53EB
  m53F1 m5406 m549E m5438 m5448 m5468 m54A2 m54F6 m5510 m5553 m5563 m5584 m5584 m5599 m55AB m55B3
  m55C2 m5716 m5606 m5717 m5651 m5674 m5207 m58EE m57CE m57F4 m580D m578B m5832 m5831 m58AC m214E4
  m58F2 m58F7 m5906 m591A m5922 m5962 m216A8 m216EA m59EC m5A1B m5A27 m59D8 m5A66 m36EE m36FC
  m5B08 m5B3E m5B3E m219C8 m5BC3 m5BD8 m5BE7 m5BF3 m21B18 m5BFF m5C06 m5F53 m5C22 m3781 m5C60
  m5C6E m5CC0 m5C8D m21DE4 m5D43 m21DE6 m5D6E m5D6B m5D7C 2m5DE1 m382F m5DFD m5E28 m5E3D m5E69
  m3862 m22183 m387C m5EB0 m5EB3 m5EB6 m5ECA m2A392 m5EFE m22331 m22331 m8201 m5F22 m5F22 m38C7
  m232B8 m261DA m5F62 m5F6B m38E3 m5F9A m5FCD m5FD7 m5FF9 m6081 m393A m391C m6094 m226D4 m60C7
  m6148 m614C m614E m614C m617A m618E m61B2 m61A4 m61AF m61DE m61F2 m61F6 m6210 m621B m625D m62B1
  m62D4 m6350 m22B0C m633D m62FC m6368 m6383 m63E4 m22BF1 m6422 m63C5 m63A9 m3A2E m6469 m647E
  m649D m6477 m3A6C m654F m656C m2300A m65E3 m66F8 m6649 m3B19 m6691 m3B08 m3AE4 m5192 m5195 m6700
  m669C m80AD m43D9 m6717 m671B m6721 m675E m6753 m233C3 m3B49 m67FA m6785 m6852 m6885 m2346D
  m688E m681F m6914 m3B9D m6942 m69A3 m69EA m6AA8 m236A3 m6ADB m3C18 m6B21 m238A7 m6B54 m3C4E
  m6B72 m6B9F 2m6BBA m23A8D m21D0B m23AFA m6C4E m23CBC m6CBF m6CCD m6C67 m6D16 m6D3E m6D77 m6D41
  m6D69 m6D78 m6D85 m23D1E m6D34 m6E2F m6E6E m3D33 m6ECB m6EC7 m23ED1 m6DF9 m6F6E m23F5E m23F8E
  m6FC6 m7039 m701E m701B m3D96 m704A m707D m7077 m70AD m20525 m7145 m24263 m719C m243AB m7228
  m7235 m7250 m24608 m7280 m7295 m24735 m24814 m737A m738B m3EAC m73A5 m3EB8 m3EB8 m7447 m745C
  m7471 m7485 m74CA m3F1B m7524 m24C36 m753E m24C92 m7570 m2219F m7610 m24FA1 m24FB8 m25044 m3FFC
  m4008 m76F4 m250F3 m250F2 m25119 m25133 2m771E m771F m774A m4039 m778B m4046 m4096 m2541D m784E
  m788C m78CC m40E3 m25626 m7956 m2569A m256C5 m798F m79EB m412F m7A40 m7A4A m7A4F m2597C m25AA7
  m25AA7 m7AEE m4202 m25BAB m7BC6 m7BC9 m4227 m25C80 m7CD2 m42A0 m7CE8 m7CE3 m7D00 m25F86 m7D63
  m4301 m7DC7 m7E02 m7E45 m4334 m26228 m26247 m4359 m262D9 m7F7A m2633E m7F95 m7FFA m8005 m264DA
  m26523 m8060 m265A8 m8070 m2335F m43D5 m80B2 m8103 m440B m813E m5AB5 m267A7 m267B5 m23393 m2339C
  m8201 m8204 m8F9E m446B m8291 m828B m829D m52B3 m82B1 m82B3 m82BD m82E6 m26B3C m82E5 m831D m8363
  m83AD m8323 m83BD m83E7 m8457 m8353 m83CA m83CC m83DC m26C36 m26D6B m26CD5 m452B m84F1 m84F3
  m8516 m273CA m8564 m26F2C m455D m4561 m26FB1 m270D2 m456B m8650 m865C m8667 m8669 m86A9 m8688
  m870E m86E2 m8779 m8728 m876B m8786 m45D7 m87E1 m8801 m45F9 m8860 m8863 m27667 m88D7 m88DE m4635
  m88FA m34BB m278AE m27966 m46BE m46C7 m8AA0 m8AED m8B8A m8C55 m27CA8 m8CAB m8CC1 m8D1B m8D77
  m27F2F m20804 m8DCB m8DBC m8DF0 m208DE m8ED4 m8F38 m285D2 m285ED m9094 m90F1 m9111 m2872E m911B
  m9238 2m92D7 m927C m93F9 m9415 m28BFA m958B m4995 m95B7 m28D77 m49E6 m96C3 m5DB2 m9723 m29145
  m2921A m4A6E m4A76 m97E0 m2940A m4AB2 m29496 m980B m980B m9829 m295B6 m98E2 m4B33 m9929 m99A7
  m99C2 m99FE m4BCE m29B30 m9B12 m9C40 m9CFD m4CCE m4CED m9D67 m2A0CE m4CF8 m2A105 m2A20E m2A291
  m9EBB m4D56 m9EF9 m9EFE m9F05 m9F0F m9F16 m9F3B m2A600 5E2x 134Bv 5x 212Av ACC86x F0i"

def fold? (c : Char) : Option (List Char) := do
  let run ← foldings.run? c
  match run.kind with
  | 'v' => some [c]
  | 'i' => some []
  | 'm' => some (run.codes.map fun code => Char.ofNat (code + run.offset c))
  | 'p' => some [if run.offset c % 2 = 0 then Char.ofNat (c.toNat + 1) else c]
  | _ => none

def isPlain (c : Char) : Bool := fold? c == some [c]

end SourceOverlay.Domain
