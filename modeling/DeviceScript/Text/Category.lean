import DeviceScript.Text.Utf8

/-!
General categories of code points, as of Unicode 15. The table lists, in order, the code
points where the category changes, in base sixteen, each with the category that begins there.
-/

namespace DeviceScript.Text

private def categoryChanges : List String :=
  ["0Cc 20Zs 21Po 24Sc 25Po 28Ps 29Pe 2aPo 2bSm 2cPo 2dPd 2ePo 30Nd 3aPo 3cSm 3fPo 41Lu 5bPs",
   "5cPo 5dPe 5eSk 5fPc 60Sk 61Ll 7bPs 7cSm 7dPe 7eSm 7fCc a0Zs a1Po a2Sc a6So a7Po a8Sk a9So",
   "aaLo abPi acSm adCf aeSo afSk b0So b1Sm b2No b4Sk b5Ll b6Po b8Sk b9No baLo bbPf bcNo bfPo",
   "c0Lu d7Sm d8Lu dfLl f7Sm f8Ll 100Lu 101Ll 102Lu 103Ll 104Lu 105Ll 106Lu 107Ll 108Lu 109Ll",
   "10aLu 10bLl 10cLu 10dLl 10eLu 10fLl 110Lu 111Ll 112Lu 113Ll 114Lu 115Ll 116Lu 117Ll 118Lu",
   "119Ll 11aLu 11bLl 11cLu 11dLl 11eLu 11fLl 120Lu 121Ll 122Lu 123Ll 124Lu 125Ll 126Lu 127Ll",
   "128Lu 129Ll 12aLu 12bLl 12cLu 12dLl 12eLu 12fLl 130Lu 131Ll 132Lu 133Ll 134Lu 135Ll 136Lu",
   "137Ll 139Lu 13aLl 13bLu 13cLl 13dLu 13eLl 13fLu 140Ll 141Lu 142Ll 143Lu 144Ll 145Lu 146Ll",
   "147Lu 148Ll 14aLu 14bLl 14cLu 14dLl 14eLu 14fLl 150Lu 151Ll 152Lu 153Ll 154Lu 155Ll 156Lu",
   "157Ll 158Lu 159Ll 15aLu 15bLl 15cLu 15dLl 15eLu 15fLl 160Lu 161Ll 162Lu 163Ll 164Lu 165Ll",
   "166Lu 167Ll 168Lu 169Ll 16aLu 16bLl 16cLu 16dLl 16eLu 16fLl 170Lu 171Ll 172Lu 173Ll 174Lu",
   "175Ll 176Lu 177Ll 178Lu 17aLl 17bLu 17cLl 17dLu 17eLl 181Lu 183Ll 184Lu 185Ll 186Lu 188Ll",
   "189Lu 18cLl 18eLu 192Ll 193Lu 195Ll 196Lu 199Ll 19cLu 19eLl 19fLu 1a1Ll 1a2Lu 1a3Ll 1a4Lu",
   "1a5Ll 1a6Lu 1a8Ll 1a9Lu 1aaLl 1acLu 1adLl 1aeLu 1b0Ll 1b1Lu 1b4Ll 1b5Lu 1b6Ll 1b7Lu 1b9Ll",
   "1bbLo 1bcLu 1bdLl 1c0Lo 1c4Lu 1c5Lt 1c6Ll 1c7Lu 1c8Lt 1c9Ll 1caLu 1cbLt 1ccLl 1cdLu 1ceLl",
   "1cfLu 1d0Ll 1d1Lu 1d2Ll 1d3Lu 1d4Ll 1d5Lu 1d6Ll 1d7Lu 1d8Ll 1d9Lu 1daLl 1dbLu 1dcLl 1deLu",
   "1dfLl 1e0Lu 1e1Ll 1e2Lu 1e3Ll 1e4Lu 1e5Ll 1e6Lu 1e7Ll 1e8Lu 1e9Ll 1eaLu 1ebLl 1ecLu 1edLl",
   "1eeLu 1efLl 1f1Lu 1f2Lt 1f3Ll 1f4Lu 1f5Ll 1f6Lu 1f9Ll 1faLu 1fbLl 1fcLu 1fdLl 1feLu 1ffLl",
   "200Lu 201Ll 202Lu 203Ll 204Lu 205Ll 206Lu 207Ll 208Lu 209Ll 20aLu 20bLl 20cLu 20dLl 20eLu",
   "20fLl 210Lu 211Ll 212Lu 213Ll 214Lu 215Ll 216Lu 217Ll 218Lu 219Ll 21aLu 21bLl 21cLu 21dLl",
   "21eLu 21fLl 220Lu 221Ll 222Lu 223Ll 224Lu 225Ll 226Lu 227Ll 228Lu 229Ll 22aLu 22bLl 22cLu",
   "22dLl 22eLu 22fLl 230Lu 231Ll 232Lu 233Ll 23aLu 23cLl 23dLu 23fLl 241Lu 242Ll 243Lu 247Ll",
   "248Lu 249Ll 24aLu 24bLl 24cLu 24dLl 24eLu 24fLl 294Lo 295Ll 2b0Lm 2c2Sk 2c6Lm 2d2Sk 2e0Lm",
   "2e5Sk 2ecLm 2edSk 2eeLm 2efSk 300Mn 370Lu 371Ll 372Lu 373Ll 374Lm 375Sk 376Lu 377Ll 378Cn",
   "37aLm 37bLl 37ePo 37fLu 380Cn 384Sk 386Lu 387Po 388Lu 38bCn 38cLu 38dCn 38eLu 390Ll 391Lu",
   "3a2Cn 3a3Lu 3acLl 3cfLu 3d0Ll 3d2Lu 3d5Ll 3d8Lu 3d9Ll 3daLu 3dbLl 3dcLu 3ddLl 3deLu 3dfLl",
   "3e0Lu 3e1Ll 3e2Lu 3e3Ll 3e4Lu 3e5Ll 3e6Lu 3e7Ll 3e8Lu 3e9Ll 3eaLu 3ebLl 3ecLu 3edLl 3eeLu",
   "3efLl 3f4Lu 3f5Ll 3f6Sm 3f7Lu 3f8Ll 3f9Lu 3fbLl 3fdLu 430Ll 460Lu 461Ll 462Lu 463Ll 464Lu",
   "465Ll 466Lu 467Ll 468Lu 469Ll 46aLu 46bLl 46cLu 46dLl 46eLu 46fLl 470Lu 471Ll 472Lu 473Ll",
   "474Lu 475Ll 476Lu 477Ll 478Lu 479Ll 47aLu 47bLl 47cLu 47dLl 47eLu 47fLl 480Lu 481Ll 482So",
   "483Mn 488Me 48aLu 48bLl 48cLu 48dLl 48eLu 48fLl 490Lu 491Ll 492Lu 493Ll 494Lu 495Ll 496Lu",
   "497Ll 498Lu 499Ll 49aLu 49bLl 49cLu 49dLl 49eLu 49fLl 4a0Lu 4a1Ll 4a2Lu 4a3Ll 4a4Lu 4a5Ll",
   "4a6Lu 4a7Ll 4a8Lu 4a9Ll 4aaLu 4abLl 4acLu 4adLl 4aeLu 4afLl 4b0Lu 4b1Ll 4b2Lu 4b3Ll 4b4Lu",
   "4b5Ll 4b6Lu 4b7Ll 4b8Lu 4b9Ll 4baLu 4bbLl 4bcLu 4bdLl 4beLu 4bfLl 4c0Lu 4c2Ll 4c3Lu 4c4Ll",
   "4c5Lu 4c6Ll 4c7Lu 4c8Ll 4c9Lu 4caLl 4cbLu 4ccLl 4cdLu 4ceLl 4d0Lu 4d1Ll 4d2Lu 4d3Ll 4d4Lu",
   "4d5Ll 4d6Lu 4d7Ll 4d8Lu 4d9Ll 4daLu 4dbLl 4dcLu 4ddLl 4deLu 4dfLl 4e0Lu 4e1Ll 4e2Lu 4e3Ll",
   "4e4Lu 4e5Ll 4e6Lu 4e7Ll 4e8Lu 4e9Ll 4eaLu 4ebLl 4ecLu 4edLl 4eeLu 4efLl 4f0Lu 4f1Ll 4f2Lu",
   "4f3Ll 4f4Lu 4f5Ll 4f6Lu 4f7Ll 4f8Lu 4f9Ll 4faLu 4fbLl 4fcLu 4fdLl 4feLu 4ffLl 500Lu 501Ll",
   "502Lu 503Ll 504Lu 505Ll 506Lu 507Ll 508Lu 509Ll 50aLu 50bLl 50cLu 50dLl 50eLu 50fLl 510Lu",
   "511Ll 512Lu 513Ll 514Lu 515Ll 516Lu 517Ll 518Lu 519Ll 51aLu 51bLl 51cLu 51dLl 51eLu 51fLl",
   "520Lu 521Ll 522Lu 523Ll 524Lu 525Ll 526Lu 527Ll 528Lu 529Ll 52aLu 52bLl 52cLu 52dLl 52eLu",
   "52fLl 530Cn 531Lu 557Cn 559Lm 55aPo 560Ll 589Po 58aPd 58bCn 58dSo 58fSc 590Cn 591Mn 5bePd",
   "5bfMn 5c0Po 5c1Mn 5c3Po 5c4Mn 5c6Po 5c7Mn 5c8Cn 5d0Lo 5ebCn 5efLo 5f3Po 5f5Cn 600Cf 606Sm",
   "609Po 60bSc 60cPo 60eSo 610Mn 61bPo 61cCf 61dPo 620Lo 640Lm 641Lo 64bMn 660Nd 66aPo 66eLo",
   "670Mn 671Lo 6d4Po 6d5Lo 6d6Mn 6ddCf 6deSo 6dfMn 6e5Lm 6e7Mn 6e9So 6eaMn 6eeLo 6f0Nd 6faLo",
   "6fdSo 6ffLo 700Po 70eCn 70fCf 710Lo 711Mn 712Lo 730Mn 74bCn 74dLo 7a6Mn 7b1Lo 7b2Cn 7c0Nd",
   "7caLo 7ebMn 7f4Lm 7f6So 7f7Po 7faLm 7fbCn 7fdMn 7feSc 800Lo 816Mn 81aLm 81bMn 824Lm 825Mn",
   "828Lm 829Mn 82eCn 830Po 83fCn 840Lo 859Mn 85cCn 85ePo 85fCn 860Lo 86bCn 870Lo 888Sk 889Lo",
   "88fCn 890Cf 892Cn 898Mn 8a0Lo 8c9Lm 8caMn 8e2Cf 8e3Mn 903Mc 904Lo 93aMn 93bMc 93cMn 93dLo",
   "93eMc 941Mn 949Mc 94dMn 94eMc 950Lo 951Mn 958Lo 962Mn 964Po 966Nd 970Po 971Lm 972Lo 981Mn",
   "982Mc 984Cn 985Lo 98dCn 98fLo 991Cn 993Lo 9a9Cn 9aaLo 9b1Cn 9b2Lo 9b3Cn 9b6Lo 9baCn 9bcMn",
   "9bdLo 9beMc 9c1Mn 9c5Cn 9c7Mc 9c9Cn 9cbMc 9cdMn 9ceLo 9cfCn 9d7Mc 9d8Cn 9dcLo 9deCn 9dfLo",
   "9e2Mn 9e4Cn 9e6Nd 9f0Lo 9f2Sc 9f4No 9faSo 9fbSc 9fcLo 9fdPo 9feMn 9ffCn a01Mn a03Mc a04Cn",
   "a05Lo a0bCn a0fLo a11Cn a13Lo a29Cn a2aLo a31Cn a32Lo a34Cn a35Lo a37Cn a38Lo a3aCn a3cMn",
   "a3dCn a3eMc a41Mn a43Cn a47Mn a49Cn a4bMn a4eCn a51Mn a52Cn a59Lo a5dCn a5eLo a5fCn a66Nd",
   "a70Mn a72Lo a75Mn a76Po a77Cn a81Mn a83Mc a84Cn a85Lo a8eCn a8fLo a92Cn a93Lo aa9Cn aaaLo",
   "ab1Cn ab2Lo ab4Cn ab5Lo abaCn abcMn abdLo abeMc ac1Mn ac6Cn ac7Mn ac9Mc acaCn acbMc acdMn",
   "aceCn ad0Lo ad1Cn ae0Lo ae2Mn ae4Cn ae6Nd af0Po af1Sc af2Cn af9Lo afaMn b00Cn b01Mn b02Mc",
   "b04Cn b05Lo b0dCn b0fLo b11Cn b13Lo b29Cn b2aLo b31Cn b32Lo b34Cn b35Lo b3aCn b3cMn b3dLo",
   "b3eMc b3fMn b40Mc b41Mn b45Cn b47Mc b49Cn b4bMc b4dMn b4eCn b55Mn b57Mc b58Cn b5cLo b5eCn",
   "b5fLo b62Mn b64Cn b66Nd b70So b71Lo b72No b78Cn b82Mn b83Lo b84Cn b85Lo b8bCn b8eLo b91Cn",
   "b92Lo b96Cn b99Lo b9bCn b9cLo b9dCn b9eLo ba0Cn ba3Lo ba5Cn ba8Lo babCn baeLo bbaCn bbeMc",
   "bc0Mn bc1Mc bc3Cn bc6Mc bc9Cn bcaMc bcdMn bceCn bd0Lo bd1Cn bd7Mc bd8Cn be6Nd bf0No bf3So",
   "bf9Sc bfaSo bfbCn c00Mn c01Mc c04Mn c05Lo c0dCn c0eLo c11Cn c12Lo c29Cn c2aLo c3aCn c3cMn",
   "c3dLo c3eMn c41Mc c45Cn c46Mn c49Cn c4aMn c4eCn c55Mn c57Cn c58Lo c5bCn c5dLo c5eCn c60Lo",
   "c62Mn c64Cn c66Nd c70Cn c77Po c78No c7fSo c80Lo c81Mn c82Mc c84Po c85Lo c8dCn c8eLo c91Cn",
   "c92Lo ca9Cn caaLo cb4Cn cb5Lo cbaCn cbcMn cbdLo cbeMc cbfMn cc0Mc cc5Cn cc6Mn cc7Mc cc9Cn",
   "ccaMc cccMn cceCn cd5Mc cd7Cn cddLo cdfCn ce0Lo ce2Mn ce4Cn ce6Nd cf0Cn cf1Lo cf3Mc cf4Cn",
   "d00Mn d02Mc d04Lo d0dCn d0eLo d11Cn d12Lo d3bMn d3dLo d3eMc d41Mn d45Cn d46Mc d49Cn d4aMc",
   "d4dMn d4eLo d4fSo d50Cn d54Lo d57Mc d58No d5fLo d62Mn d64Cn d66Nd d70No d79So d7aLo d80Cn",
   "d81Mn d82Mc d84Cn d85Lo d97Cn d9aLo db2Cn db3Lo dbcCn dbdLo dbeCn dc0Lo dc7Cn dcaMn dcbCn",
   "dcfMc dd2Mn dd5Cn dd6Mn dd7Cn dd8Mc de0Cn de6Nd df0Cn df2Mc df4Po df5Cn e01Lo e31Mn e32Lo",
   "e34Mn e3bCn e3fSc e40Lo e46Lm e47Mn e4fPo e50Nd e5aPo e5cCn e81Lo e83Cn e84Lo e85Cn e86Lo",
   "e8bCn e8cLo ea4Cn ea5Lo ea6Cn ea7Lo eb1Mn eb2Lo eb4Mn ebdLo ebeCn ec0Lo ec5Cn ec6Lm ec7Cn",
   "ec8Mn ecfCn ed0Nd edaCn edcLo ee0Cn f00Lo f01So f04Po f13So f14Po f15So f18Mn f1aSo f20Nd",
   "f2aNo f34So f35Mn f36So f37Mn f38So f39Mn f3aPs f3bPe f3cPs f3dPe f3eMc f40Lo f48Cn f49Lo",
   "f6dCn f71Mn f7fMc f80Mn f85Po f86Mn f88Lo f8dMn f98Cn f99Mn fbdCn fbeSo fc6Mn fc7So fcdCn",
   "fceSo fd0Po fd5So fd9Po fdbCn 1000Lo 102bMc 102dMn 1031Mc 1032Mn 1038Mc 1039Mn 103bMc 103dMn",
   "103fLo 1040Nd 104aPo 1050Lo 1056Mc 1058Mn 105aLo 105eMn 1061Lo 1062Mc 1065Lo 1067Mc 106eLo",
   "1071Mn 1075Lo 1082Mn 1083Mc 1085Mn 1087Mc 108dMn 108eLo 108fMc 1090Nd 109aMc 109dMn 109eSo",
   "10a0Lu 10c6Cn 10c7Lu 10c8Cn 10cdLu 10ceCn 10d0Ll 10fbPo 10fcLm 10fdLl 1100Lo 1249Cn 124aLo",
   "124eCn 1250Lo 1257Cn 1258Lo 1259Cn 125aLo 125eCn 1260Lo 1289Cn 128aLo 128eCn 1290Lo 12b1Cn",
   "12b2Lo 12b6Cn 12b8Lo 12bfCn 12c0Lo 12c1Cn 12c2Lo 12c6Cn 12c8Lo 12d7Cn 12d8Lo 1311Cn 1312Lo",
   "1316Cn 1318Lo 135bCn 135dMn 1360Po 1369No 137dCn 1380Lo 1390So 139aCn 13a0Lu 13f6Cn 13f8Ll",
   "13feCn 1400Pd 1401Lo 166dSo 166ePo 166fLo 1680Zs 1681Lo 169bPs 169cPe 169dCn 16a0Lo 16ebPo",
   "16eeNl 16f1Lo 16f9Cn 1700Lo 1712Mn 1715Mc 1716Cn 171fLo 1732Mn 1734Mc 1735Po 1737Cn 1740Lo",
   "1752Mn 1754Cn 1760Lo 176dCn 176eLo 1771Cn 1772Mn 1774Cn 1780Lo 17b4Mn 17b6Mc 17b7Mn 17beMc",
   "17c6Mn 17c7Mc 17c9Mn 17d4Po 17d7Lm 17d8Po 17dbSc 17dcLo 17ddMn 17deCn 17e0Nd 17eaCn 17f0No",
   "17faCn 1800Po 1806Pd 1807Po 180bMn 180eCf 180fMn 1810Nd 181aCn 1820Lo 1843Lm 1844Lo 1879Cn",
   "1880Lo 1885Mn 1887Lo 18a9Mn 18aaLo 18abCn 18b0Lo 18f6Cn 1900Lo 191fCn 1920Mn 1923Mc 1927Mn",
   "1929Mc 192cCn 1930Mc 1932Mn 1933Mc 1939Mn 193cCn 1940So 1941Cn 1944Po 1946Nd 1950Lo 196eCn",
   "1970Lo 1975Cn 1980Lo 19acCn 19b0Lo 19caCn 19d0Nd 19daNo 19dbCn 19deSo 1a00Lo 1a17Mn 1a19Mc",
   "1a1bMn 1a1cCn 1a1ePo 1a20Lo 1a55Mc 1a56Mn 1a57Mc 1a58Mn 1a5fCn 1a60Mn 1a61Mc 1a62Mn 1a63Mc",
   "1a65Mn 1a6dMc 1a73Mn 1a7dCn 1a7fMn 1a80Nd 1a8aCn 1a90Nd 1a9aCn 1aa0Po 1aa7Lm 1aa8Po 1aaeCn",
   "1ab0Mn 1abeMe 1abfMn 1acfCn 1b00Mn 1b04Mc 1b05Lo 1b34Mn 1b35Mc 1b36Mn 1b3bMc 1b3cMn 1b3dMc",
   "1b42Mn 1b43Mc 1b45Lo 1b4dCn 1b50Nd 1b5aPo 1b61So 1b6bMn 1b74So 1b7dPo 1b7fCn 1b80Mn 1b82Mc",
   "1b83Lo 1ba1Mc 1ba2Mn 1ba6Mc 1ba8Mn 1baaMc 1babMn 1baeLo 1bb0Nd 1bbaLo 1be6Mn 1be7Mc 1be8Mn",
   "1beaMc 1bedMn 1beeMc 1befMn 1bf2Mc 1bf4Cn 1bfcPo 1c00Lo 1c24Mc 1c2cMn 1c34Mc 1c36Mn 1c38Cn",
   "1c3bPo 1c40Nd 1c4aCn 1c4dLo 1c50Nd 1c5aLo 1c78Lm 1c7ePo 1c80Ll 1c89Cn 1c90Lu 1cbbCn 1cbdLu",
   "1cc0Po 1cc8Cn 1cd0Mn 1cd3Po 1cd4Mn 1ce1Mc 1ce2Mn 1ce9Lo 1cedMn 1ceeLo 1cf4Mn 1cf5Lo 1cf7Mc",
   "1cf8Mn 1cfaLo 1cfbCn 1d00Ll 1d2cLm 1d6bLl 1d78Lm 1d79Ll 1d9bLm 1dc0Mn 1e00Lu 1e01Ll 1e02Lu",
   "1e03Ll 1e04Lu 1e05Ll 1e06Lu 1e07Ll 1e08Lu 1e09Ll 1e0aLu 1e0bLl 1e0cLu 1e0dLl 1e0eLu 1e0fLl",
   "1e10Lu 1e11Ll 1e12Lu 1e13Ll 1e14Lu 1e15Ll 1e16Lu 1e17Ll 1e18Lu 1e19Ll 1e1aLu 1e1bLl 1e1cLu",
   "1e1dLl 1e1eLu 1e1fLl 1e20Lu 1e21Ll 1e22Lu 1e23Ll 1e24Lu 1e25Ll 1e26Lu 1e27Ll 1e28Lu 1e29Ll",
   "1e2aLu 1e2bLl 1e2cLu 1e2dLl 1e2eLu 1e2fLl 1e30Lu 1e31Ll 1e32Lu 1e33Ll 1e34Lu 1e35Ll 1e36Lu",
   "1e37Ll 1e38Lu 1e39Ll 1e3aLu 1e3bLl 1e3cLu 1e3dLl 1e3eLu 1e3fLl 1e40Lu 1e41Ll 1e42Lu 1e43Ll",
   "1e44Lu 1e45Ll 1e46Lu 1e47Ll 1e48Lu 1e49Ll 1e4aLu 1e4bLl 1e4cLu 1e4dLl 1e4eLu 1e4fLl 1e50Lu",
   "1e51Ll 1e52Lu 1e53Ll 1e54Lu 1e55Ll 1e56Lu 1e57Ll 1e58Lu 1e59Ll 1e5aLu 1e5bLl 1e5cLu 1e5dLl",
   "1e5eLu 1e5fLl 1e60Lu 1e61Ll 1e62Lu 1e63Ll 1e64Lu 1e65Ll 1e66Lu 1e67Ll 1e68Lu 1e69Ll 1e6aLu",
   "1e6bLl 1e6cLu 1e6dLl 1e6eLu 1e6fLl 1e70Lu 1e71Ll 1e72Lu 1e73Ll 1e74Lu 1e75Ll 1e76Lu 1e77Ll",
   "1e78Lu 1e79Ll 1e7aLu 1e7bLl 1e7cLu 1e7dLl 1e7eLu 1e7fLl 1e80Lu 1e81Ll 1e82Lu 1e83Ll 1e84Lu",
   "1e85Ll 1e86Lu 1e87Ll 1e88Lu 1e89Ll 1e8aLu 1e8bLl 1e8cLu 1e8dLl 1e8eLu 1e8fLl 1e90Lu 1e91Ll",
   "1e92Lu 1e93Ll 1e94Lu 1e95Ll 1e9eLu 1e9fLl 1ea0Lu 1ea1Ll 1ea2Lu 1ea3Ll 1ea4Lu 1ea5Ll 1ea6Lu",
   "1ea7Ll 1ea8Lu 1ea9Ll 1eaaLu 1eabLl 1eacLu 1eadLl 1eaeLu 1eafLl 1eb0Lu 1eb1Ll 1eb2Lu 1eb3Ll",
   "1eb4Lu 1eb5Ll 1eb6Lu 1eb7Ll 1eb8Lu 1eb9Ll 1ebaLu 1ebbLl 1ebcLu 1ebdLl 1ebeLu 1ebfLl 1ec0Lu",
   "1ec1Ll 1ec2Lu 1ec3Ll 1ec4Lu 1ec5Ll 1ec6Lu 1ec7Ll 1ec8Lu 1ec9Ll 1ecaLu 1ecbLl 1eccLu 1ecdLl",
   "1eceLu 1ecfLl 1ed0Lu 1ed1Ll 1ed2Lu 1ed3Ll 1ed4Lu 1ed5Ll 1ed6Lu 1ed7Ll 1ed8Lu 1ed9Ll 1edaLu",
   "1edbLl 1edcLu 1eddLl 1edeLu 1edfLl 1ee0Lu 1ee1Ll 1ee2Lu 1ee3Ll 1ee4Lu 1ee5Ll 1ee6Lu 1ee7Ll",
   "1ee8Lu 1ee9Ll 1eeaLu 1eebLl 1eecLu 1eedLl 1eeeLu 1eefLl 1ef0Lu 1ef1Ll 1ef2Lu 1ef3Ll 1ef4Lu",
   "1ef5Ll 1ef6Lu 1ef7Ll 1ef8Lu 1ef9Ll 1efaLu 1efbLl 1efcLu 1efdLl 1efeLu 1effLl 1f08Lu 1f10Ll",
   "1f16Cn 1f18Lu 1f1eCn 1f20Ll 1f28Lu 1f30Ll 1f38Lu 1f40Ll 1f46Cn 1f48Lu 1f4eCn 1f50Ll 1f58Cn",
   "1f59Lu 1f5aCn 1f5bLu 1f5cCn 1f5dLu 1f5eCn 1f5fLu 1f60Ll 1f68Lu 1f70Ll 1f7eCn 1f80Ll 1f88Lt",
   "1f90Ll 1f98Lt 1fa0Ll 1fa8Lt 1fb0Ll 1fb5Cn 1fb6Ll 1fb8Lu 1fbcLt 1fbdSk 1fbeLl 1fbfSk 1fc2Ll",
   "1fc5Cn 1fc6Ll 1fc8Lu 1fccLt 1fcdSk 1fd0Ll 1fd4Cn 1fd6Ll 1fd8Lu 1fdcCn 1fddSk 1fe0Ll 1fe8Lu",
   "1fedSk 1ff0Cn 1ff2Ll 1ff5Cn 1ff6Ll 1ff8Lu 1ffcLt 1ffdSk 1fffCn 2000Zs 200bCf 2010Pd 2016Po",
   "2018Pi 2019Pf 201aPs 201bPi 201dPf 201ePs 201fPi 2020Po 2028Zl 2029Zp 202aCf 202fZs 2030Po",
   "2039Pi 203aPf 203bPo 203fPc 2041Po 2044Sm 2045Ps 2046Pe 2047Po 2052Sm 2053Po 2054Pc 2055Po",
   "205fZs 2060Cf 2065Cn 2066Cf 2070No 2071Lm 2072Cn 2074No 207aSm 207dPs 207ePe 207fLm 2080No",
   "208aSm 208dPs 208ePe 208fCn 2090Lm 209dCn 20a0Sc 20c1Cn 20d0Mn 20ddMe 20e1Mn 20e2Me 20e5Mn",
   "20f1Cn 2100So 2102Lu 2103So 2107Lu 2108So 210aLl 210bLu 210eLl 2110Lu 2113Ll 2114So 2115Lu",
   "2116So 2118Sm 2119Lu 211eSo 2124Lu 2125So 2126Lu 2127So 2128Lu 2129So 212aLu 212eSo 212fLl",
   "2130Lu 2134Ll 2135Lo 2139Ll 213aSo 213cLl 213eLu 2140Sm 2145Lu 2146Ll 214aSo 214bSm 214cSo",
   "214eLl 214fSo 2150No 2160Nl 2183Lu 2184Ll 2185Nl 2189No 218aSo 218cCn 2190Sm 2195So 219aSm",
   "219cSo 21a0Sm 21a1So 21a3Sm 21a4So 21a6Sm 21a7So 21aeSm 21afSo 21ceSm 21d0So 21d2Sm 21d3So",
   "21d4Sm 21d5So 21f4Sm 2300So 2308Ps 2309Pe 230aPs 230bPe 230cSo 2320Sm 2322So 2329Ps 232aPe",
   "232bSo 237cSm 237dSo 239bSm 23b4So 23dcSm 23e2So 2427Cn 2440So 244bCn 2460No 249cSo 24eaNo",
   "2500So 25b7Sm 25b8So 25c1Sm 25c2So 25f8Sm 2600So 266fSm 2670So 2768Ps 2769Pe 276aPs 276bPe",
   "276cPs 276dPe 276ePs 276fPe 2770Ps 2771Pe 2772Ps 2773Pe 2774Ps 2775Pe 2776No 2794So 27c0Sm",
   "27c5Ps 27c6Pe 27c7Sm 27e6Ps 27e7Pe 27e8Ps 27e9Pe 27eaPs 27ebPe 27ecPs 27edPe 27eePs 27efPe",
   "27f0Sm 2800So 2900Sm 2983Ps 2984Pe 2985Ps 2986Pe 2987Ps 2988Pe 2989Ps 298aPe 298bPs 298cPe",
   "298dPs 298ePe 298fPs 2990Pe 2991Ps 2992Pe 2993Ps 2994Pe 2995Ps 2996Pe 2997Ps 2998Pe 2999Sm",
   "29d8Ps 29d9Pe 29daPs 29dbPe 29dcSm 29fcPs 29fdPe 29feSm 2b00So 2b30Sm 2b45So 2b47Sm 2b4dSo",
   "2b74Cn 2b76So 2b96Cn 2b97So 2c00Lu 2c30Ll 2c60Lu 2c61Ll 2c62Lu 2c65Ll 2c67Lu 2c68Ll 2c69Lu",
   "2c6aLl 2c6bLu 2c6cLl 2c6dLu 2c71Ll 2c72Lu 2c73Ll 2c75Lu 2c76Ll 2c7cLm 2c7eLu 2c81Ll 2c82Lu",
   "2c83Ll 2c84Lu 2c85Ll 2c86Lu 2c87Ll 2c88Lu 2c89Ll 2c8aLu 2c8bLl 2c8cLu 2c8dLl 2c8eLu 2c8fLl",
   "2c90Lu 2c91Ll 2c92Lu 2c93Ll 2c94Lu 2c95Ll 2c96Lu 2c97Ll 2c98Lu 2c99Ll 2c9aLu 2c9bLl 2c9cLu",
   "2c9dLl 2c9eLu 2c9fLl 2ca0Lu 2ca1Ll 2ca2Lu 2ca3Ll 2ca4Lu 2ca5Ll 2ca6Lu 2ca7Ll 2ca8Lu 2ca9Ll",
   "2caaLu 2cabLl 2cacLu 2cadLl 2caeLu 2cafLl 2cb0Lu 2cb1Ll 2cb2Lu 2cb3Ll 2cb4Lu 2cb5Ll 2cb6Lu",
   "2cb7Ll 2cb8Lu 2cb9Ll 2cbaLu 2cbbLl 2cbcLu 2cbdLl 2cbeLu 2cbfLl 2cc0Lu 2cc1Ll 2cc2Lu 2cc3Ll",
   "2cc4Lu 2cc5Ll 2cc6Lu 2cc7Ll 2cc8Lu 2cc9Ll 2ccaLu 2ccbLl 2cccLu 2ccdLl 2cceLu 2ccfLl 2cd0Lu",
   "2cd1Ll 2cd2Lu 2cd3Ll 2cd4Lu 2cd5Ll 2cd6Lu 2cd7Ll 2cd8Lu 2cd9Ll 2cdaLu 2cdbLl 2cdcLu 2cddLl",
   "2cdeLu 2cdfLl 2ce0Lu 2ce1Ll 2ce2Lu 2ce3Ll 2ce5So 2cebLu 2cecLl 2cedLu 2ceeLl 2cefMn 2cf2Lu",
   "2cf3Ll 2cf4Cn 2cf9Po 2cfdNo 2cfePo 2d00Ll 2d26Cn 2d27Ll 2d28Cn 2d2dLl 2d2eCn 2d30Lo 2d68Cn",
   "2d6fLm 2d70Po 2d71Cn 2d7fMn 2d80Lo 2d97Cn 2da0Lo 2da7Cn 2da8Lo 2dafCn 2db0Lo 2db7Cn 2db8Lo",
   "2dbfCn 2dc0Lo 2dc7Cn 2dc8Lo 2dcfCn 2dd0Lo 2dd7Cn 2dd8Lo 2ddfCn 2de0Mn 2e00Po 2e02Pi 2e03Pf",
   "2e04Pi 2e05Pf 2e06Po 2e09Pi 2e0aPf 2e0bPo 2e0cPi 2e0dPf 2e0ePo 2e17Pd 2e18Po 2e1aPd 2e1bPo",
   "2e1cPi 2e1dPf 2e1ePo 2e20Pi 2e21Pf 2e22Ps 2e23Pe 2e24Ps 2e25Pe 2e26Ps 2e27Pe 2e28Ps 2e29Pe",
   "2e2aPo 2e2fLm 2e30Po 2e3aPd 2e3cPo 2e40Pd 2e41Po 2e42Ps 2e43Po 2e50So 2e52Po 2e55Ps 2e56Pe",
   "2e57Ps 2e58Pe 2e59Ps 2e5aPe 2e5bPs 2e5cPe 2e5dPd 2e5eCn 2e80So 2e9aCn 2e9bSo 2ef4Cn 2f00So",
   "2fd6Cn 2ff0So 2ffcCn 3000Zs 3001Po 3004So 3005Lm 3006Lo 3007Nl 3008Ps 3009Pe 300aPs 300bPe",
   "300cPs 300dPe 300ePs 300fPe 3010Ps 3011Pe 3012So 3014Ps 3015Pe 3016Ps 3017Pe 3018Ps 3019Pe",
   "301aPs 301bPe 301cPd 301dPs 301ePe 3020So 3021Nl 302aMn 302eMc 3030Pd 3031Lm 3036So 3038Nl",
   "303bLm 303cLo 303dPo 303eSo 3040Cn 3041Lo 3097Cn 3099Mn 309bSk 309dLm 309fLo 30a0Pd 30a1Lo",
   "30fbPo 30fcLm 30ffLo 3100Cn 3105Lo 3130Cn 3131Lo 318fCn 3190So 3192No 3196So 31a0Lo 31c0So",
   "31e4Cn 31f0Lo 3200So 321fCn 3220No 322aSo 3248No 3250So 3251No 3260So 3280No 328aSo 32b1No",
   "32c0So 3400Lo 4dc0So 4e00Lo a015Lm a016Lo a48dCn a490So a4c7Cn a4d0Lo a4f8Lm a4fePo a500Lo",
   "a60cLm a60dPo a610Lo a620Nd a62aLo a62cCn a640Lu a641Ll a642Lu a643Ll a644Lu a645Ll a646Lu",
   "a647Ll a648Lu a649Ll a64aLu a64bLl a64cLu a64dLl a64eLu a64fLl a650Lu a651Ll a652Lu a653Ll",
   "a654Lu a655Ll a656Lu a657Ll a658Lu a659Ll a65aLu a65bLl a65cLu a65dLl a65eLu a65fLl a660Lu",
   "a661Ll a662Lu a663Ll a664Lu a665Ll a666Lu a667Ll a668Lu a669Ll a66aLu a66bLl a66cLu a66dLl",
   "a66eLo a66fMn a670Me a673Po a674Mn a67ePo a67fLm a680Lu a681Ll a682Lu a683Ll a684Lu a685Ll",
   "a686Lu a687Ll a688Lu a689Ll a68aLu a68bLl a68cLu a68dLl a68eLu a68fLl a690Lu a691Ll a692Lu",
   "a693Ll a694Lu a695Ll a696Lu a697Ll a698Lu a699Ll a69aLu a69bLl a69cLm a69eMn a6a0Lo a6e6Nl",
   "a6f0Mn a6f2Po a6f8Cn a700Sk a717Lm a720Sk a722Lu a723Ll a724Lu a725Ll a726Lu a727Ll a728Lu",
   "a729Ll a72aLu a72bLl a72cLu a72dLl a72eLu a72fLl a732Lu a733Ll a734Lu a735Ll a736Lu a737Ll",
   "a738Lu a739Ll a73aLu a73bLl a73cLu a73dLl a73eLu a73fLl a740Lu a741Ll a742Lu a743Ll a744Lu",
   "a745Ll a746Lu a747Ll a748Lu a749Ll a74aLu a74bLl a74cLu a74dLl a74eLu a74fLl a750Lu a751Ll",
   "a752Lu a753Ll a754Lu a755Ll a756Lu a757Ll a758Lu a759Ll a75aLu a75bLl a75cLu a75dLl a75eLu",
   "a75fLl a760Lu a761Ll a762Lu a763Ll a764Lu a765Ll a766Lu a767Ll a768Lu a769Ll a76aLu a76bLl",
   "a76cLu a76dLl a76eLu a76fLl a770Lm a771Ll a779Lu a77aLl a77bLu a77cLl a77dLu a77fLl a780Lu",
   "a781Ll a782Lu a783Ll a784Lu a785Ll a786Lu a787Ll a788Lm a789Sk a78bLu a78cLl a78dLu a78eLl",
   "a78fLo a790Lu a791Ll a792Lu a793Ll a796Lu a797Ll a798Lu a799Ll a79aLu a79bLl a79cLu a79dLl",
   "a79eLu a79fLl a7a0Lu a7a1Ll a7a2Lu a7a3Ll a7a4Lu a7a5Ll a7a6Lu a7a7Ll a7a8Lu a7a9Ll a7aaLu",
   "a7afLl a7b0Lu a7b5Ll a7b6Lu a7b7Ll a7b8Lu a7b9Ll a7baLu a7bbLl a7bcLu a7bdLl a7beLu a7bfLl",
   "a7c0Lu a7c1Ll a7c2Lu a7c3Ll a7c4Lu a7c8Ll a7c9Lu a7caLl a7cbCn a7d0Lu a7d1Ll a7d2Cn a7d3Ll",
   "a7d4Cn a7d5Ll a7d6Lu a7d7Ll a7d8Lu a7d9Ll a7daCn a7f2Lm a7f5Lu a7f6Ll a7f7Lo a7f8Lm a7faLl",
   "a7fbLo a802Mn a803Lo a806Mn a807Lo a80bMn a80cLo a823Mc a825Mn a827Mc a828So a82cMn a82dCn",
   "a830No a836So a838Sc a839So a83aCn a840Lo a874Po a878Cn a880Mc a882Lo a8b4Mc a8c4Mn a8c6Cn",
   "a8cePo a8d0Nd a8daCn a8e0Mn a8f2Lo a8f8Po a8fbLo a8fcPo a8fdLo a8ffMn a900Nd a90aLo a926Mn",
   "a92ePo a930Lo a947Mn a952Mc a954Cn a95fPo a960Lo a97dCn a980Mn a983Mc a984Lo a9b3Mn a9b4Mc",
   "a9b6Mn a9baMc a9bcMn a9beMc a9c1Po a9ceCn a9cfLm a9d0Nd a9daCn a9dePo a9e0Lo a9e5Mn a9e6Lm",
   "a9e7Lo a9f0Nd a9faLo a9ffCn aa00Lo aa29Mn aa2fMc aa31Mn aa33Mc aa35Mn aa37Cn aa40Lo aa43Mn",
   "aa44Lo aa4cMn aa4dMc aa4eCn aa50Nd aa5aCn aa5cPo aa60Lo aa70Lm aa71Lo aa77So aa7aLo aa7bMc",
   "aa7cMn aa7dMc aa7eLo aab0Mn aab1Lo aab2Mn aab5Lo aab7Mn aab9Lo aabeMn aac0Lo aac1Mn aac2Lo",
   "aac3Cn aadbLo aaddLm aadePo aae0Lo aaebMc aaecMn aaeeMc aaf0Po aaf2Lo aaf3Lm aaf5Mc aaf6Mn",
   "aaf7Cn ab01Lo ab07Cn ab09Lo ab0fCn ab11Lo ab17Cn ab20Lo ab27Cn ab28Lo ab2fCn ab30Ll ab5bSk",
   "ab5cLm ab60Ll ab69Lm ab6aSk ab6cCn ab70Ll abc0Lo abe3Mc abe5Mn abe6Mc abe8Mn abe9Mc abebPo",
   "abecMc abedMn abeeCn abf0Nd abfaCn ac00Lo d7a4Cn d7b0Lo d7c7Cn d7cbLo d7fcCn d800Cs e000Co",
   "f900Lo fa6eCn fa70Lo fadaCn fb00Ll fb07Cn fb13Ll fb18Cn fb1dLo fb1eMn fb1fLo fb29Sm fb2aLo",
   "fb37Cn fb38Lo fb3dCn fb3eLo fb3fCn fb40Lo fb42Cn fb43Lo fb45Cn fb46Lo fbb2Sk fbc3Cn fbd3Lo",
   "fd3ePe fd3fPs fd40So fd50Lo fd90Cn fd92Lo fdc8Cn fdcfSo fdd0Cn fdf0Lo fdfcSc fdfdSo fe00Mn",
   "fe10Po fe17Ps fe18Pe fe19Po fe1aCn fe20Mn fe30Po fe31Pd fe33Pc fe35Ps fe36Pe fe37Ps fe38Pe",
   "fe39Ps fe3aPe fe3bPs fe3cPe fe3dPs fe3ePe fe3fPs fe40Pe fe41Ps fe42Pe fe43Ps fe44Pe fe45Po",
   "fe47Ps fe48Pe fe49Po fe4dPc fe50Po fe53Cn fe54Po fe58Pd fe59Ps fe5aPe fe5bPs fe5cPe fe5dPs",
   "fe5ePe fe5fPo fe62Sm fe63Pd fe64Sm fe67Cn fe68Po fe69Sc fe6aPo fe6cCn fe70Lo fe75Cn fe76Lo",
   "fefdCn feffCf ff00Cn ff01Po ff04Sc ff05Po ff08Ps ff09Pe ff0aPo ff0bSm ff0cPo ff0dPd ff0ePo",
   "ff10Nd ff1aPo ff1cSm ff1fPo ff21Lu ff3bPs ff3cPo ff3dPe ff3eSk ff3fPc ff40Sk ff41Ll ff5bPs",
   "ff5cSm ff5dPe ff5eSm ff5fPs ff60Pe ff61Po ff62Ps ff63Pe ff64Po ff66Lo ff70Lm ff71Lo ff9eLm",
   "ffa0Lo ffbfCn ffc2Lo ffc8Cn ffcaLo ffd0Cn ffd2Lo ffd8Cn ffdaLo ffddCn ffe0Sc ffe2Sm ffe3Sk",
   "ffe4So ffe5Sc ffe7Cn ffe8So ffe9Sm ffedSo ffefCn fff9Cf fffcSo fffeCn 10000Lo 1000cCn",
   "1000dLo 10027Cn 10028Lo 1003bCn 1003cLo 1003eCn 1003fLo 1004eCn 10050Lo 1005eCn 10080Lo",
   "100fbCn 10100Po 10103Cn 10107No 10134Cn 10137So 10140Nl 10175No 10179So 1018aNo 1018cSo",
   "1018fCn 10190So 1019dCn 101a0So 101a1Cn 101d0So 101fdMn 101feCn 10280Lo 1029dCn 102a0Lo",
   "102d1Cn 102e0Mn 102e1No 102fcCn 10300Lo 10320No 10324Cn 1032dLo 10341Nl 10342Lo 1034aNl",
   "1034bCn 10350Lo 10376Mn 1037bCn 10380Lo 1039eCn 1039fPo 103a0Lo 103c4Cn 103c8Lo 103d0Po",
   "103d1Nl 103d6Cn 10400Lu 10428Ll 10450Lo 1049eCn 104a0Nd 104aaCn 104b0Lu 104d4Cn 104d8Ll",
   "104fcCn 10500Lo 10528Cn 10530Lo 10564Cn 1056fPo 10570Lu 1057bCn 1057cLu 1058bCn 1058cLu",
   "10593Cn 10594Lu 10596Cn 10597Ll 105a2Cn 105a3Ll 105b2Cn 105b3Ll 105baCn 105bbLl 105bdCn",
   "10600Lo 10737Cn 10740Lo 10756Cn 10760Lo 10768Cn 10780Lm 10786Cn 10787Lm 107b1Cn 107b2Lm",
   "107bbCn 10800Lo 10806Cn 10808Lo 10809Cn 1080aLo 10836Cn 10837Lo 10839Cn 1083cLo 1083dCn",
   "1083fLo 10856Cn 10857Po 10858No 10860Lo 10877So 10879No 10880Lo 1089fCn 108a7No 108b0Cn",
   "108e0Lo 108f3Cn 108f4Lo 108f6Cn 108fbNo 10900Lo 10916No 1091cCn 1091fPo 10920Lo 1093aCn",
   "1093fPo 10940Cn 10980Lo 109b8Cn 109bcNo 109beLo 109c0No 109d0Cn 109d2No 10a00Lo 10a01Mn",
   "10a04Cn 10a05Mn 10a07Cn 10a0cMn 10a10Lo 10a14Cn 10a15Lo 10a18Cn 10a19Lo 10a36Cn 10a38Mn",
   "10a3bCn 10a3fMn 10a40No 10a49Cn 10a50Po 10a59Cn 10a60Lo 10a7dNo 10a7fPo 10a80Lo 10a9dNo",
   "10aa0Cn 10ac0Lo 10ac8So 10ac9Lo 10ae5Mn 10ae7Cn 10aebNo 10af0Po 10af7Cn 10b00Lo 10b36Cn",
   "10b39Po 10b40Lo 10b56Cn 10b58No 10b60Lo 10b73Cn 10b78No 10b80Lo 10b92Cn 10b99Po 10b9dCn",
   "10ba9No 10bb0Cn 10c00Lo 10c49Cn 10c80Lu 10cb3Cn 10cc0Ll 10cf3Cn 10cfaNo 10d00Lo 10d24Mn",
   "10d28Cn 10d30Nd 10d3aCn 10e60No 10e7fCn 10e80Lo 10eaaCn 10eabMn 10eadPd 10eaeCn 10eb0Lo",
   "10eb2Cn 10efdMn 10f00Lo 10f1dNo 10f27Lo 10f28Cn 10f30Lo 10f46Mn 10f51No 10f55Po 10f5aCn",
   "10f70Lo 10f82Mn 10f86Po 10f8aCn 10fb0Lo 10fc5No 10fccCn 10fe0Lo 10ff7Cn 11000Mc 11001Mn",
   "11002Mc 11003Lo 11038Mn 11047Po 1104eCn 11052No 11066Nd 11070Mn 11071Lo 11073Mn 11075Lo",
   "11076Cn 1107fMn 11082Mc 11083Lo 110b0Mc 110b3Mn 110b7Mc 110b9Mn 110bbPo 110bdCf 110bePo",
   "110c2Mn 110c3Cn 110cdCf 110ceCn 110d0Lo 110e9Cn 110f0Nd 110faCn 11100Mn 11103Lo 11127Mn",
   "1112cMc 1112dMn 11135Cn 11136Nd 11140Po 11144Lo 11145Mc 11147Lo 11148Cn 11150Lo 11173Mn",
   "11174Po 11176Lo 11177Cn 11180Mn 11182Mc 11183Lo 111b3Mc 111b6Mn 111bfMc 111c1Lo 111c5Po",
   "111c9Mn 111cdPo 111ceMc 111cfMn 111d0Nd 111daLo 111dbPo 111dcLo 111ddPo 111e0Cn 111e1No",
   "111f5Cn 11200Lo 11212Cn 11213Lo 1122cMc 1122fMn 11232Mc 11234Mn 11235Mc 11236Mn 11238Po",
   "1123eMn 1123fLo 11241Mn 11242Cn 11280Lo 11287Cn 11288Lo 11289Cn 1128aLo 1128eCn 1128fLo",
   "1129eCn 1129fLo 112a9Po 112aaCn 112b0Lo 112dfMn 112e0Mc 112e3Mn 112ebCn 112f0Nd 112faCn",
   "11300Mn 11302Mc 11304Cn 11305Lo 1130dCn 1130fLo 11311Cn 11313Lo 11329Cn 1132aLo 11331Cn",
   "11332Lo 11334Cn 11335Lo 1133aCn 1133bMn 1133dLo 1133eMc 11340Mn 11341Mc 11345Cn 11347Mc",
   "11349Cn 1134bMc 1134eCn 11350Lo 11351Cn 11357Mc 11358Cn 1135dLo 11362Mc 11364Cn 11366Mn",
   "1136dCn 11370Mn 11375Cn 11400Lo 11435Mc 11438Mn 11440Mc 11442Mn 11445Mc 11446Mn 11447Lo",
   "1144bPo 11450Nd 1145aPo 1145cCn 1145dPo 1145eMn 1145fLo 11462Cn 11480Lo 114b0Mc 114b3Mn",
   "114b9Mc 114baMn 114bbMc 114bfMn 114c1Mc 114c2Mn 114c4Lo 114c6Po 114c7Lo 114c8Cn 114d0Nd",
   "114daCn 11580Lo 115afMc 115b2Mn 115b6Cn 115b8Mc 115bcMn 115beMc 115bfMn 115c1Po 115d8Lo",
   "115dcMn 115deCn 11600Lo 11630Mc 11633Mn 1163bMc 1163dMn 1163eMc 1163fMn 11641Po 11644Lo",
   "11645Cn 11650Nd 1165aCn 11660Po 1166dCn 11680Lo 116abMn 116acMc 116adMn 116aeMc 116b0Mn",
   "116b6Mc 116b7Mn 116b8Lo 116b9Po 116baCn 116c0Nd 116caCn 11700Lo 1171bCn 1171dMn 11720Mc",
   "11722Mn 11726Mc 11727Mn 1172cCn 11730Nd 1173aNo 1173cPo 1173fSo 11740Lo 11747Cn 11800Lo",
   "1182cMc 1182fMn 11838Mc 11839Mn 1183bPo 1183cCn 118a0Lu 118c0Ll 118e0Nd 118eaNo 118f3Cn",
   "118ffLo 11907Cn 11909Lo 1190aCn 1190cLo 11914Cn 11915Lo 11917Cn 11918Lo 11930Mc 11936Cn",
   "11937Mc 11939Cn 1193bMn 1193dMc 1193eMn 1193fLo 11940Mc 11941Lo 11942Mc 11943Mn 11944Po",
   "11947Cn 11950Nd 1195aCn 119a0Lo 119a8Cn 119aaLo 119d1Mc 119d4Mn 119d8Cn 119daMn 119dcMc",
   "119e0Mn 119e1Lo 119e2Po 119e3Lo 119e4Mc 119e5Cn 11a00Lo 11a01Mn 11a0bLo 11a33Mn 11a39Mc",
   "11a3aLo 11a3bMn 11a3fPo 11a47Mn 11a48Cn 11a50Lo 11a51Mn 11a57Mc 11a59Mn 11a5cLo 11a8aMn",
   "11a97Mc 11a98Mn 11a9aPo 11a9dLo 11a9ePo 11aa3Cn 11ab0Lo 11af9Cn 11b00Po 11b0aCn 11c00Lo",
   "11c09Cn 11c0aLo 11c2fMc 11c30Mn 11c37Cn 11c38Mn 11c3eMc 11c3fMn 11c40Lo 11c41Po 11c46Cn",
   "11c50Nd 11c5aNo 11c6dCn 11c70Po 11c72Lo 11c90Cn 11c92Mn 11ca8Cn 11ca9Mc 11caaMn 11cb1Mc",
   "11cb2Mn 11cb4Mc 11cb5Mn 11cb7Cn 11d00Lo 11d07Cn 11d08Lo 11d0aCn 11d0bLo 11d31Mn 11d37Cn",
   "11d3aMn 11d3bCn 11d3cMn 11d3eCn 11d3fMn 11d46Lo 11d47Mn 11d48Cn 11d50Nd 11d5aCn 11d60Lo",
   "11d66Cn 11d67Lo 11d69Cn 11d6aLo 11d8aMc 11d8fCn 11d90Mn 11d92Cn 11d93Mc 11d95Mn 11d96Mc",
   "11d97Mn 11d98Lo 11d99Cn 11da0Nd 11daaCn 11ee0Lo 11ef3Mn 11ef5Mc 11ef7Po 11ef9Cn 11f00Mn",
   "11f02Lo 11f03Mc 11f04Lo 11f11Cn 11f12Lo 11f34Mc 11f36Mn 11f3bCn 11f3eMc 11f40Mn 11f41Mc",
   "11f42Mn 11f43Po 11f50Nd 11f5aCn 11fb0Lo 11fb1Cn 11fc0No 11fd5So 11fddSc 11fe1So 11ff2Cn",
   "11fffPo 12000Lo 1239aCn 12400Nl 1246fCn 12470Po 12475Cn 12480Lo 12544Cn 12f90Lo 12ff1Po",
   "12ff3Cn 13000Lo 13430Cf 13440Mn 13441Lo 13447Mn 13456Cn 14400Lo 14647Cn 16800Lo 16a39Cn",
   "16a40Lo 16a5fCn 16a60Nd 16a6aCn 16a6ePo 16a70Lo 16abfCn 16ac0Nd 16acaCn 16ad0Lo 16aeeCn",
   "16af0Mn 16af5Po 16af6Cn 16b00Lo 16b30Mn 16b37Po 16b3cSo 16b40Lm 16b44Po 16b45So 16b46Cn",
   "16b50Nd 16b5aCn 16b5bNo 16b62Cn 16b63Lo 16b78Cn 16b7dLo 16b90Cn 16e40Lu 16e60Ll 16e80No",
   "16e97Po 16e9bCn 16f00Lo 16f4bCn 16f4fMn 16f50Lo 16f51Mc 16f88Cn 16f8fMn 16f93Lm 16fa0Cn",
   "16fe0Lm 16fe2Po 16fe3Lm 16fe4Mn 16fe5Cn 16ff0Mc 16ff2Cn 17000Lo 187f8Cn 18800Lo 18cd6Cn",
   "18d00Lo 18d09Cn 1aff0Lm 1aff4Cn 1aff5Lm 1affcCn 1affdLm 1afffCn 1b000Lo 1b123Cn 1b132Lo",
   "1b133Cn 1b150Lo 1b153Cn 1b155Lo 1b156Cn 1b164Lo 1b168Cn 1b170Lo 1b2fcCn 1bc00Lo 1bc6bCn",
   "1bc70Lo 1bc7dCn 1bc80Lo 1bc89Cn 1bc90Lo 1bc9aCn 1bc9cSo 1bc9dMn 1bc9fPo 1bca0Cf 1bca4Cn",
   "1cf00Mn 1cf2eCn 1cf30Mn 1cf47Cn 1cf50So 1cfc4Cn 1d000So 1d0f6Cn 1d100So 1d127Cn 1d129So",
   "1d165Mc 1d167Mn 1d16aSo 1d16dMc 1d173Cf 1d17bMn 1d183So 1d185Mn 1d18cSo 1d1aaMn 1d1aeSo",
   "1d1ebCn 1d200So 1d242Mn 1d245So 1d246Cn 1d2c0No 1d2d4Cn 1d2e0No 1d2f4Cn 1d300So 1d357Cn",
   "1d360No 1d379Cn 1d400Lu 1d41aLl 1d434Lu 1d44eLl 1d455Cn 1d456Ll 1d468Lu 1d482Ll 1d49cLu",
   "1d49dCn 1d49eLu 1d4a0Cn 1d4a2Lu 1d4a3Cn 1d4a5Lu 1d4a7Cn 1d4a9Lu 1d4adCn 1d4aeLu 1d4b6Ll",
   "1d4baCn 1d4bbLl 1d4bcCn 1d4bdLl 1d4c4Cn 1d4c5Ll 1d4d0Lu 1d4eaLl 1d504Lu 1d506Cn 1d507Lu",
   "1d50bCn 1d50dLu 1d515Cn 1d516Lu 1d51dCn 1d51eLl 1d538Lu 1d53aCn 1d53bLu 1d53fCn 1d540Lu",
   "1d545Cn 1d546Lu 1d547Cn 1d54aLu 1d551Cn 1d552Ll 1d56cLu 1d586Ll 1d5a0Lu 1d5baLl 1d5d4Lu",
   "1d5eeLl 1d608Lu 1d622Ll 1d63cLu 1d656Ll 1d670Lu 1d68aLl 1d6a6Cn 1d6a8Lu 1d6c1Sm 1d6c2Ll",
   "1d6dbSm 1d6dcLl 1d6e2Lu 1d6fbSm 1d6fcLl 1d715Sm 1d716Ll 1d71cLu 1d735Sm 1d736Ll 1d74fSm",
   "1d750Ll 1d756Lu 1d76fSm 1d770Ll 1d789Sm 1d78aLl 1d790Lu 1d7a9Sm 1d7aaLl 1d7c3Sm 1d7c4Ll",
   "1d7caLu 1d7cbLl 1d7ccCn 1d7ceNd 1d800So 1da00Mn 1da37So 1da3bMn 1da6dSo 1da75Mn 1da76So",
   "1da84Mn 1da85So 1da87Po 1da8cCn 1da9bMn 1daa0Cn 1daa1Mn 1dab0Cn 1df00Ll 1df0aLo 1df0bLl",
   "1df1fCn 1df25Ll 1df2bCn 1e000Mn 1e007Cn 1e008Mn 1e019Cn 1e01bMn 1e022Cn 1e023Mn 1e025Cn",
   "1e026Mn 1e02bCn 1e030Lm 1e06eCn 1e08fMn 1e090Cn 1e100Lo 1e12dCn 1e130Mn 1e137Lm 1e13eCn",
   "1e140Nd 1e14aCn 1e14eLo 1e14fSo 1e150Cn 1e290Lo 1e2aeMn 1e2afCn 1e2c0Lo 1e2ecMn 1e2f0Nd",
   "1e2faCn 1e2ffSc 1e300Cn 1e4d0Lo 1e4ebLm 1e4ecMn 1e4f0Nd 1e4faCn 1e7e0Lo 1e7e7Cn 1e7e8Lo",
   "1e7ecCn 1e7edLo 1e7efCn 1e7f0Lo 1e7ffCn 1e800Lo 1e8c5Cn 1e8c7No 1e8d0Mn 1e8d7Cn 1e900Lu",
   "1e922Ll 1e944Mn 1e94bLm 1e94cCn 1e950Nd 1e95aCn 1e95ePo 1e960Cn 1ec71No 1ecacSo 1ecadNo",
   "1ecb0Sc 1ecb1No 1ecb5Cn 1ed01No 1ed2eSo 1ed2fNo 1ed3eCn 1ee00Lo 1ee04Cn 1ee05Lo 1ee20Cn",
   "1ee21Lo 1ee23Cn 1ee24Lo 1ee25Cn 1ee27Lo 1ee28Cn 1ee29Lo 1ee33Cn 1ee34Lo 1ee38Cn 1ee39Lo",
   "1ee3aCn 1ee3bLo 1ee3cCn 1ee42Lo 1ee43Cn 1ee47Lo 1ee48Cn 1ee49Lo 1ee4aCn 1ee4bLo 1ee4cCn",
   "1ee4dLo 1ee50Cn 1ee51Lo 1ee53Cn 1ee54Lo 1ee55Cn 1ee57Lo 1ee58Cn 1ee59Lo 1ee5aCn 1ee5bLo",
   "1ee5cCn 1ee5dLo 1ee5eCn 1ee5fLo 1ee60Cn 1ee61Lo 1ee63Cn 1ee64Lo 1ee65Cn 1ee67Lo 1ee6bCn",
   "1ee6cLo 1ee73Cn 1ee74Lo 1ee78Cn 1ee79Lo 1ee7dCn 1ee7eLo 1ee7fCn 1ee80Lo 1ee8aCn 1ee8bLo",
   "1ee9cCn 1eea1Lo 1eea4Cn 1eea5Lo 1eeaaCn 1eeabLo 1eebcCn 1eef0Sm 1eef2Cn 1f000So 1f02cCn",
   "1f030So 1f094Cn 1f0a0So 1f0afCn 1f0b1So 1f0c0Cn 1f0c1So 1f0d0Cn 1f0d1So 1f0f6Cn 1f100No",
   "1f10dSo 1f1aeCn 1f1e6So 1f203Cn 1f210So 1f23cCn 1f240So 1f249Cn 1f250So 1f252Cn 1f260So",
   "1f266Cn 1f300So 1f3fbSk 1f400So 1f6d8Cn 1f6dcSo 1f6edCn 1f6f0So 1f6fdCn 1f700So 1f777Cn",
   "1f77bSo 1f7daCn 1f7e0So 1f7ecCn 1f7f0So 1f7f1Cn 1f800So 1f80cCn 1f810So 1f848Cn 1f850So",
   "1f85aCn 1f860So 1f888Cn 1f890So 1f8aeCn 1f8b0So 1f8b2Cn 1f900So 1fa54Cn 1fa60So 1fa6eCn",
   "1fa70So 1fa7dCn 1fa80So 1fa89Cn 1fa90So 1fabeCn 1fabfSo 1fac6Cn 1faceSo 1fadcCn 1fae0So",
   "1fae9Cn 1faf0So 1faf9Cn 1fb00So 1fb93Cn 1fb94So 1fbcbCn 1fbf0Nd 1fbfaCn 20000Lo 2a6e0Cn",
   "2a700Lo 2b73aCn 2b740Lo 2b81eCn 2b820Lo 2cea2Cn 2ceb0Lo 2ebe1Cn 2f800Lo 2fa1eCn 30000Lo",
   "3134bCn 31350Lo 323b0Cn e0001Cf e0002Cn e0020Cf e0080Cn e0100Mn e01f0Cn f0000Co ffffeCn",
   "100000Co 10fffeCn"]

def tableWords (rows : List String) : List Text :=
  rows.flatMap fun row => splitOn (ascii ' ') (ofString row)

def readHex (t : Text) : Nat × Text :=
  (t.takeWhile isLowerHex |>.foldl (fun n b => n * 16 + (hexValue? b).getD 0) 0,
   t.dropWhile isLowerHex)
where
  isLowerHex (b : UInt8) : Bool := isDigit b || (97 ≤ b && b ≤ 102)

/-- The changes of category, in the order of the code points. -/
def categoryTable : Array (Nat × Text) :=
  ((tableWords categoryChanges).map readHex).toArray

/-- The last entry of a table ordered by its first column that begins at or before `code`;
`count` bounds the number of halvings. -/
def lookupChange (table : Array (Nat × Text)) (code : Nat) : Nat → Nat → Nat → Text
  | 0, lo, _ => (table[lo]?.map Prod.snd).getD []
  | count + 1, lo, hi =>
      if lo + 1 ≥ hi then (table[lo]?.map Prod.snd).getD []
      else
        let middle := (lo + hi) / 2
        if ((table[middle]?.map Prod.fst).getD 0) ≤ code then lookupChange table code count middle hi
        else lookupChange table code count lo middle

def category (code : Nat) : Text :=
  lookupChange categoryTable code 32 0 categoryTable.size

/-- Letters, marks, numbers, punctuation, symbols and the ordinary space. -/
def isPrintable (code : Nat) : Bool :=
  if code < 0x80 then 0x20 ≤ code && code < 0x7F
  else
    match category code with
    | [] => false
    | major :: _ =>
        major == ascii 'L' || major == ascii 'M' || major == ascii 'N' || major == ascii 'P'
          || major == ascii 'S'

/-- The ranges of a general category, or of all those that begin with a given letter. The
unassigned code points belong to none. -/
def categoryRanges? (name : Text) : Option (List (Nat × Nat)) :=
  let entries := categoryTable.toList
  let ends := (entries.drop 1).map Prod.fst ++ [0x110000]
  let named := (entries.zip ends).filterMap fun ((lo, found), next) =>
    if found != ofString "Cn" && (found == name || found.take 1 == name) then some (lo, next - 1)
    else none
  if named.isEmpty then none else some named

end DeviceScript.Text
